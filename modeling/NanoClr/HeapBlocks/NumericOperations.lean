import NanoClr.Library.MachineDivision

/-!
# Integer division and shifts

The operations of `CLR_RT_HeapBlock` on the integers of the evaluation stack.
A block has 64 bits, and its data type tells which of them are the integer.
-/

namespace NanoClr

namespace HeapBlocks

/-- The data types of the integers on the evaluation stack. -/
inductive StackDataType where
  | DATATYPE_I4
  | DATATYPE_U4
  | DATATYPE_I8
  | DATATYPE_U8
deriving DecidableEq

namespace StackDataType

/-- The type has 64 bits. -/
def isWide : StackDataType → Bool
  | DATATYPE_I4 | DATATYPE_U4 => false
  | DATATYPE_I8 | DATATYPE_U8 => true

/-- The type has negative numbers. -/
def isSigned : StackDataType → Bool
  | DATATYPE_I4 | DATATYPE_I8 => true
  | DATATYPE_U4 | DATATYPE_U8 => false

end StackDataType

open StackDataType

/-- A block on the evaluation stack: its type and the two words of its
number. -/
structure CLR_RT_HeapBlock where
  dataType : StackDataType
  numeric : BitVec 64
deriving DecidableEq

/-- The failures of the operations. -/
inductive HResult where
  | CLR_E_DIVIDE_BY_ZERO
deriving DecidableEq

/-- What an operation comes to; it may evaluate what has no meaning in C++. -/
inductive NumericResult where
  | S_OK (block : CLR_RT_HeapBlock)
  | failed (hr : HResult)
  | undefined
deriving DecidableEq

namespace CLR_RT_HeapBlock

/-- The low word. -/
def u4 (block : CLR_RT_HeapBlock) : BitVec 32 :=
  block.numeric.setWidth 32

/-- The low word is replaced and the high one kept. -/
def storeWord (block : CLR_RT_HeapBlock) :
    Option (BitVec 32) → NumericResult
  | none => .undefined
  | some word =>
      .S_OK { block with
        numeric := block.numeric.extractLsb' 32 32 ++ word }

/-- Both words of the result are stored, where there is one. -/
def storeBoth (block : CLR_RT_HeapBlock) :
    Option (BitVec 64) → NumericResult
  | none => .undefined
  | some words => .S_OK { block with numeric := words }

/-- `IsZero` for the integers. -/
def IsZero (block : CLR_RT_HeapBlock) : Bool :=
  match block.dataType with
  | DATATYPE_I8 | DATATYPE_U8 => block.numeric = 0
  | DATATYPE_I4 | DATATYPE_U4 => block.u4 = 0

variable (block right : CLR_RT_HeapBlock)

/-- `NumericDiv` for the integers. -/
def NumericDiv : NumericResult :=
  if right.IsZero then
    .failed .CLR_E_DIVIDE_BY_ZERO
  else
    match block.dataType with
    | DATATYPE_U4 | DATATYPE_I4 =>
        block.storeWord (quotient true block.u4 right.u4)
    | DATATYPE_U8 | DATATYPE_I8 =>
        block.storeBoth (quotient true block.numeric right.numeric)

/-- `NumericDivUn`. -/
def NumericDivUn : NumericResult :=
  if right.IsZero then
    .failed .CLR_E_DIVIDE_BY_ZERO
  else
    match block.dataType with
    | DATATYPE_I4 | DATATYPE_U4 =>
        block.storeWord (quotient false block.u4 right.u4)
    | DATATYPE_I8 | DATATYPE_U8 =>
        block.storeBoth (quotient false block.numeric right.numeric)

/-- The data type decides whether the remainder is that of signed integers. -/
def NumericRem : NumericResult :=
  if right.IsZero then
    .failed .CLR_E_DIVIDE_BY_ZERO
  else
    match block.dataType with
    | DATATYPE_U4 => block.storeWord (remainder false block.u4 right.u4)
    | DATATYPE_I4 => block.storeWord (remainder true block.u4 right.u4)
    | DATATYPE_U8 =>
        block.storeBoth (remainder false block.numeric right.numeric)
    | DATATYPE_I8 =>
        block.storeBoth (remainder true block.numeric right.numeric)

/-- `NumericRemUn`. -/
def NumericRemUn : NumericResult :=
  if right.IsZero then
    .failed .CLR_E_DIVIDE_BY_ZERO
  else
    match block.dataType with
    | DATATYPE_I4 | DATATYPE_U4 =>
        block.storeWord (remainder false block.u4 right.u4)
    | DATATYPE_I8 | DATATYPE_U8 =>
        block.storeBoth (remainder false block.numeric right.numeric)

/-- `NumericShl`. -/
def NumericShl : NumericResult :=
  match block.dataType with
  | DATATYPE_I4 | DATATYPE_U4 =>
      block.storeWord (shiftLeft block.u4 right.u4.toNat)
  | DATATYPE_I8 | DATATYPE_U8 =>
      block.storeBoth (shiftLeft block.numeric right.u4.toNat)

/-- The data type decides whether the sign is kept. -/
def NumericShr : NumericResult :=
  match block.dataType with
  | DATATYPE_U4 => block.storeWord (shiftRight false block.u4 right.u4.toNat)
  | DATATYPE_I4 => block.storeWord (shiftRight true block.u4 right.u4.toNat)
  | DATATYPE_U8 =>
      block.storeBoth (shiftRight false block.numeric right.u4.toNat)
  | DATATYPE_I8 =>
      block.storeBoth (shiftRight true block.numeric right.u4.toNat)

/-- `NumericShrUn`. -/
def NumericShrUn : NumericResult :=
  match block.dataType with
  | DATATYPE_I4 | DATATYPE_U4 =>
      block.storeWord (shiftRight false block.u4 right.u4.toNat)
  | DATATYPE_I8 | DATATYPE_U8 =>
      block.storeBoth (shiftRight false block.numeric right.u4.toNat)

/-- The integer of the bits of one width. -/
def integerIn (isWide signed : Bool) : Int :=
  if isWide then
    integerOf signed block.numeric
  else
    integerOf signed block.u4

/-- The integer that a block stands for. -/
def integer (signed : Bool) : Int :=
  block.integerIn block.dataType.isWide signed

end CLR_RT_HeapBlock

open CLR_RT_HeapBlock

/-! ## The operations of the interpreter -/

/-- Division gives a quotient and a remainder, by two operations; each has a
form for unsigned integers. -/
inductive IntegerOperation where
  | division (signed : Bool)
  | shl
  | shr
  | shrUn

/-- How many integers there are of one width. -/
def modulus (isWide : Bool) : Int :=
  if isWide then (2 ^ 64 : Nat) else (2 ^ 32 : Nat)

/-- The divisor is zero and this is an error, the quotient is not an integer of
the width and this is an error, or both results are those of a division. -/
def Divides (signed : Bool) (left right : CLR_RT_HeapBlock)
    (quotient remainder : NumericResult) : Prop :=
  (right.integer signed = 0 ∧
    quotient = .failed .CLR_E_DIVIDE_BY_ZERO ∧
      remainder = .failed .CLR_E_DIVIDE_BY_ZERO) ∨
  (signed ∧ left.integer signed = -(modulus left.dataType.isWide / 2) ∧
    right.integer signed = -1 ∧
      ∃ hr hr', quotient = .failed hr ∧ remainder = .failed hr') ∨
  ∃ q r, quotient = .S_OK q ∧ remainder = .S_OK r ∧
    q.dataType = left.dataType ∧ r.dataType = left.dataType ∧
      IsDivision (left.integer signed) (right.integer signed)
        (q.integer signed) (r.integer signed)

/-- Whatever the data types, the same bits and the same count give the same
bits. -/
def Shifts (shift : CLR_RT_HeapBlock → CLR_RT_HeapBlock → NumericResult)
    (left right : CLR_RT_HeapBlock) : Prop :=
  ∃ bits, ∀ dataType right',
    dataType.isWide = left.dataType.isWide → right'.u4 = right.u4 →
      shift { left with dataType := dataType } right' = .S_OK ⟨dataType, bits⟩

namespace IntegerOperation

/-- What is promised of an operation on two blocks. -/
def Holds (left right : CLR_RT_HeapBlock) : IntegerOperation → Prop
  | division true =>
      Divides true left right (left.NumericDiv right) (left.NumericRem right)
  | division false =>
      Divides false left right (left.NumericDivUn right)
        (left.NumericRemUn right)
  | shl => Shifts NumericShl left right
  | shr => Shifts NumericShr left right
  | shrUn => Shifts NumericShrUn left right

/-- The divisor is zero; or its bits in the width of the dividend are not, the
quotient by them is an integer of that width, they are those of the divisor or
both quotients are zero, and signed integers of an unsigned data type have the
same remainder. -/
def DivisionHoldsWhen (signed : Bool) (left right : CLR_RT_HeapBlock) : Prop :=
  let isWide := left.dataType.isWide
  let a := left.integer signed
  let b := right.integer signed
  let d := right.integerIn isWide signed
  b = 0 ∨
    (d ≠ 0 ∧ ¬(signed ∧ a = -(modulus isWide / 2) ∧ d = -1)) ∧
      (b = d ∨ a.natAbs < d.natAbs ∧ a.natAbs < b.natAbs) ∧
        (signed → left.dataType.isSigned = false →
          SameRemainder a d (modulus isWide))

/-- The number of bits to shift by is below the width, and to the right no sign
is moved. -/
def HoldsWhen (left right : CLR_RT_HeapBlock) : IntegerOperation → Prop
  | division signed => DivisionHoldsWhen signed left right
  | shl | shrUn =>
      right.u4.toNat < if left.dataType.isWide then 64 else 32
  | shr =>
      (right.u4.toNat < if left.dataType.isWide then 64 else 32) ∧
        (right.u4.toNat = 0 ∨ 0 ≤ left.integer true)

end IntegerOperation

section Division

variable {signed : Bool} {left right block : CLR_RT_HeapBlock}

theorem isZero_iff :
    right.IsZero ↔ right.integer signed = 0 := by
  unfold IsZero CLR_RT_HeapBlock.integer integerIn
  cases right.dataType with
  | DATATYPE_I4 => exact decide_eq_true_iff.trans integerOf_eq_zero.symm
  | DATATYPE_U4 => exact decide_eq_true_iff.trans integerOf_eq_zero.symm
  | DATATYPE_I8 => exact decide_eq_true_iff.trans integerOf_eq_zero.symm
  | DATATYPE_U8 => exact decide_eq_true_iff.trans integerOf_eq_zero.symm

/-- A number of 64 bits differs from its low word by a multiple of `2 ^ 32`. -/
theorem integerOf_setWidth (signed : Bool) (words : BitVec 64) :
    ∃ high : Int, integerOf signed words =
        integerOf signed (words.setWidth 32) + 2 ^ 32 * high := by
  have isWord : (words.setWidth 32).toNat = words.toNat % 2 ^ 32 :=
    BitVec.toNat_setWidth 32 words
  refine ⟨(integerOf signed words -
    integerOf signed (words.setWidth 32)) / 2 ^ 32, ?_⟩
  cases signed with
  | false =>
      change (words.toNat : Int) = (words.setWidth 32).toNat + 2 ^ 32 *
        ((words.toNat - (words.setWidth 32).toNat : Int) / 2 ^ 32)
      omega
  | true =>
      change words.toInt = (words.setWidth 32).toInt + 2 ^ 32 *
        ((words.toInt - (words.setWidth 32).toInt) / 2 ^ 32)
      rw [BitVec.toInt_eq_toNat_cond, BitVec.toInt_eq_toNat_cond]
      split
      · split
        · omega
        · omega
      · split
        · omega
        · omega

theorem integerOf_word_bounds (signed : Bool) (word : BitVec 32) :
    (signed → -2 ^ 31 ≤ integerOf signed word ∧
        integerOf signed word < 2 ^ 31) ∧
      (signed = false → 0 ≤ integerOf signed word ∧
        integerOf signed word < 2 ^ 32) := by
  constructor
  · rintro rfl
    exact ⟨BitVec.le_toInt word, BitVec.toInt_lt⟩
  · rintro rfl
    exact ⟨Int.natCast_nonneg _, Int.ofNat_lt.mpr word.isLt⟩

theorem integerOf_nonneg (words : BitVec 64) : 0 ≤ integerOf false words :=
  Int.natCast_nonneg _

/-- Equal quotients of a word by a number of 64 bits and by its low word. -/
theorem quotients_apart_narrow
    {word : BitVec 32}
    {words : BitVec 64}
    (different : integerOf signed words ≠
      integerOf signed (words.setWidth 32))
    (same : (integerOf signed word).tdiv
        (integerOf signed (words.setWidth 32)) =
      (integerOf signed word).tdiv (integerOf signed words)) :
    (integerOf signed word).tdiv (integerOf signed (words.setWidth 32)) =
      0 := by
  obtain ⟨high, isSum⟩ := integerOf_setWidth signed words
  have wordBounds := integerOf_word_bounds signed word
  have lowBounds :=
    integerOf_word_bounds signed (words.setWidth 32)
  have nonneg := integerOf_nonneg words
  by_cases less :
      (integerOf signed word).natAbs < (integerOf signed words).natAbs
  · rw [same, tdiv_eq_zero_iff (by omega)]
    exact less
  · cases signed with
    | false => 
        have bounds := wordBounds.2 rfl
        have low := lowBounds.2 rfl
        omega
    | true =>
        have bounds := wordBounds.1 rfl
        have low := lowBounds.1 rfl
        exact tdiv_eq_zero_of_signs (by omega) same

/-- Equal quotients of a number of 64 bits by a word and by 64 bits of which it
is the low word. -/
theorem quotients_apart_wide
    {number words : BitVec 64}
    (notZero : integerOf signed (words.setWidth 32) ≠ 0)
    (different : integerOf signed (words.setWidth 32) ≠
      integerOf signed words)
    (same : (integerOf signed number).tdiv (integerOf signed words) =
      (integerOf signed number).tdiv
        (integerOf signed (words.setWidth 32))) :
    (integerOf signed number).tdiv (integerOf signed words) = 0 := by
  obtain ⟨high, isSum⟩ := integerOf_setWidth signed words
  have lowBounds :=
    integerOf_word_bounds signed (words.setWidth 32)
  have nonneg := integerOf_nonneg words
  by_cases signs : 0 < integerOf signed (words.setWidth 32) ∧
      integerOf signed words < 0 ∨
    integerOf signed (words.setWidth 32) < 0 ∧ 0 < integerOf signed words
  · exact tdiv_eq_zero_of_signs signs same
  · apply tdiv_eq_zero_of_twice notZero _ same
    cases signed with
    | false => 
        have low := lowBounds.2 rfl
        omega
    | true =>
        have low := lowBounds.1 rfl
        omega

/-- Equal quotients by the divisor and by its bits in the other width are
zero. -/
theorem quotients_apart
    (left : CLR_RT_HeapBlock)
    (notZero : right.integer signed ≠ 0)
    (different : right.integer signed ≠
      right.integerIn left.dataType.isWide signed)
    (same : (left.integer signed).tdiv
        (right.integerIn left.dataType.isWide signed) =
      (left.integer signed).tdiv (right.integer signed)) :
    (left.integer signed).tdiv
      (right.integerIn left.dataType.isWide signed) = 0 := by
  unfold CLR_RT_HeapBlock.integer at *
  cases leftWide : left.dataType.isWide with
  | false =>
      cases rightWide : right.dataType.isWide with
      | false =>
          rw [leftWide, rightWide] at different
          exact absurd rfl different
      | true =>
          rw [leftWide, rightWide] at different same
          exact quotients_apart_narrow different same
  | true =>
      cases rightWide : right.dataType.isWide with
      | false =>
          rw [rightWide] at notZero
          rw [leftWide, rightWide] at different same
          exact quotients_apart_wide notZero different same
      | true =>
          rw [leftWide, rightWide] at different
          exact absurd rfl different

/-- What two operations that store words come to, unless the divisor is
zero. -/
theorem divides_iff_words
    {width : Nat}
    (store : Option (BitVec width) → NumericResult)
    {stored : BitVec width → CLR_RT_HeapBlock}
    {quotient remainder : Option (BitVec width)}
    (fails : store none = .undefined)
    (stores : ∀ word, store (some word) = .S_OK (stored word))
    (sameType : ∀ word, (stored word).dataType = left.dataType)
    (isInteger : ∀ word, (stored word).integer signed = integerOf signed word)
    (notZero : right.integer signed ≠ 0) :
    Divides signed left right (store quotient) (store remainder) ↔
      ∃ q r, quotient = some q ∧ remainder = some r ∧
        IsDivision (left.integer signed) (right.integer signed)
          (integerOf signed q) (integerOf signed r) := by
  have notFailed (words : Option (BitVec width)) (hr : HResult) :
      store words ≠ .failed hr := by
    cases words with
    | none => exact fails ▸ nofun
    | some word => exact stores word ▸ nofun
  constructor
  · rintro (⟨isZero, -⟩ | ⟨-, -, -, hr, _, isError, -⟩ |
      ⟨q, r, isQ, isR, -, -, division⟩)
    · exact absurd isZero notZero
    · exact absurd isError (notFailed _ _)
    · cases quotient with
      | none => exact absurd (fails.symm.trans isQ) nofun
      | some q' =>
          cases remainder with
          | none => exact absurd (fails.symm.trans isR) nofun
          | some r' =>
              rw [stores] at isQ isR
              cases isQ
              cases isR
              rw [isInteger, isInteger] at division
              exact ⟨q', r', rfl, rfl, division⟩
  · rintro ⟨q, r, rfl, rfl, division⟩
    refine Or.inr (Or.inr ⟨stored q, stored r, stores q, stores r, sameType q,
      sameType r, ?_⟩)
    rw [isInteger, isInteger]
    exact division

theorem storeWord_integer
    (isNarrow : left.dataType.isWide = false)
    (word : BitVec 32) :
    CLR_RT_HeapBlock.integer { left with
      numeric := left.numeric.extractLsb' 32 32 ++ word } signed =
        integerOf signed word := by
  have isWord : (left.numeric.extractLsb' 32 32 ++ word).setWidth 32 = word :=
    BitVec.setWidth_append_eq_right
  unfold CLR_RT_HeapBlock.integer integerIn
  rw [if_neg (by rw [isNarrow]; exact Bool.false_ne_true)]
  exact congrArg (integerOf signed) isWord

theorem storeBoth_integer
    (isWide : left.dataType.isWide)
    (words : BitVec 64) :
    CLR_RT_HeapBlock.integer { left with numeric := words } signed =
      integerOf signed words := by
  unfold CLR_RT_HeapBlock.integer integerIn
  rw [if_pos isWide]

theorem divisionHoldsWhen_iff
    {remainderSigned : Bool}
    (isSigned : signed → remainderSigned = left.dataType.isSigned)
    (notZero : right.integer signed ≠ 0) :
    IntegerOperation.DivisionHoldsWhen signed left right ↔
      (right.integerIn left.dataType.isWide signed ≠ 0 ∧
        ¬(signed ∧ left.integer signed = -(modulus left.dataType.isWide / 2) ∧
          right.integerIn left.dataType.isWide signed = -1)) ∧
      (right.integer signed = right.integerIn left.dataType.isWide signed ∨
        (left.integer signed).natAbs <
            (right.integerIn left.dataType.isWide signed).natAbs ∧
          (left.integer signed).natAbs < (right.integer signed).natAbs) ∧
      (signed → remainderSigned = false →
        SameRemainder (left.integer signed)
          (right.integerIn left.dataType.isWide signed)
          (modulus left.dataType.isWide)) := by
  unfold IntegerOperation.DivisionHoldsWhen
  dsimp only
  rw [or_iff_right notZero]
  apply and_congr_right'
  apply and_congr_right'
  exact forall_congr' fun isTrue => by rw [isSigned isTrue]

theorem divides_narrow
    (remainderSigned : Bool)
    (weaker : remainderSigned → signed)
    (isSigned : signed → remainderSigned = left.dataType.isSigned)
    (isNarrow : left.dataType.isWide = false)
    (notZero : right.integer signed ≠ 0) :
    Divides signed left right
        (left.storeWord (quotient signed left.u4 right.u4))
        (left.storeWord (remainder remainderSigned left.u4 right.u4)) ↔
      IntegerOperation.DivisionHoldsWhen signed left right := by
  have isLeft : left.integer signed = integerOf signed left.u4 := by
    rw [CLR_RT_HeapBlock.integer, isNarrow]
    rfl
  have isRight : right.integerIn left.dataType.isWide signed =
      integerOf signed right.u4 := by
    rw [isNarrow]
    rfl
  have apart := quotients_apart left notZero
  rw [isLeft, isRight] at apart
  rw [divides_iff_words left.storeWord rfl (fun _ => rfl)
    (fun _ => rfl) (storeWord_integer isNarrow) notZero, isLeft,
    division_iff weaker notZero apart,
    divisible_iff (-(modulus false / 2)) (by decide) (by decide),
    divisionHoldsWhen_iff isSigned notZero, isLeft, isRight, isNarrow]
  rfl

theorem divides_wide
    (remainderSigned : Bool)
    (weaker : remainderSigned → signed)
    (isSigned : signed → remainderSigned = left.dataType.isSigned)
    (isWide : left.dataType.isWide)
    (notZero : right.integer signed ≠ 0) :
    Divides signed left right
        (left.storeBoth (quotient signed left.numeric right.numeric))
        (left.storeBoth
          (remainder remainderSigned left.numeric right.numeric)) ↔
      IntegerOperation.DivisionHoldsWhen signed left right := by
  have isLeft : left.integer signed = integerOf signed left.numeric := by
    rw [CLR_RT_HeapBlock.integer, isWide]
    rfl
  have isRight : right.integerIn left.dataType.isWide signed =
      integerOf signed right.numeric := by
    rw [isWide]
    rfl
  have apart := quotients_apart left notZero
  rw [isLeft, isRight] at apart
  rw [divides_iff_words left.storeBoth rfl (fun _ => rfl)
    (fun _ => rfl) (storeBoth_integer isWide) notZero, isLeft,
    division_iff weaker notZero apart,
    divisible_iff (-(modulus true / 2)) (by decide) (by decide),
    divisionHoldsWhen_iff isSigned notZero, isLeft, isRight, isWide]
  rfl

theorem division_holds_iff :
    (IntegerOperation.division signed).Holds left right ↔
      IntegerOperation.DivisionHoldsWhen signed left right := by
  by_cases isZero : right.integer signed = 0
  · have divides : right.IsZero := isZero_iff.mpr isZero
    have holds : IntegerOperation.DivisionHoldsWhen signed left right :=
      Or.inl isZero
    refine iff_of_true ?_ holds
    cases signed with
    | true =>
        exact Or.inl ⟨isZero, if_pos divides, if_pos divides⟩
    | false =>
        exact Or.inl ⟨isZero, if_pos divides, if_pos divides⟩
  · have notDivides : ¬right.IsZero := mt isZero_iff.mp isZero
    cases signed with
    | true =>
        unfold IntegerOperation.Holds NumericDiv NumericRem
        rw [if_neg notDivides, if_neg notDivides]
        cases isType : left.dataType with
        | DATATYPE_I4 =>
            exact divides_narrow true (fun _ => rfl)
              (fun _ => by rw [isType]; rfl)
              (by rw [isType]; rfl) isZero
        | DATATYPE_U4 =>
            exact divides_narrow false (fun _ => rfl)
              (fun _ => by rw [isType]; rfl)
              (by rw [isType]; rfl) isZero
        | DATATYPE_I8 =>
            exact divides_wide true (fun _ => rfl)
              (fun _ => by rw [isType]; rfl)
              (by rw [isType]; rfl) isZero
        | DATATYPE_U8 =>
            exact divides_wide false (fun _ => rfl)
              (fun _ => by rw [isType]; rfl)
              (by rw [isType]; rfl) isZero
    | false =>
        unfold IntegerOperation.Holds NumericDivUn NumericRemUn
        rw [if_neg notDivides, if_neg notDivides]
        cases isType : left.dataType with
        | DATATYPE_I4 | DATATYPE_U4 =>
            exact divides_narrow false nofun nofun
              (by rw [isType]; rfl) isZero
        | DATATYPE_I8 | DATATYPE_U8 =>
            exact divides_wide false nofun nofun
              (by rw [isType]; rfl) isZero

end Division

section Shifting

variable {left right : CLR_RT_HeapBlock}

/-- The bits after a shift, by whether the data type is signed. -/
def shifted (isWide : Bool) (block : CLR_RT_HeapBlock)
    (shift : (width : Nat) → BitVec width → Option (BitVec width)) :
    Option (BitVec 64) :=
  if isWide then
    shift 64 block.numeric
  else
    (shift 32 block.u4).map fun word =>
      block.numeric.extractLsb' 32 32 ++ word

/-- The block for the bits that a shift gives, where it gives any. -/
def shiftResult (dataType : StackDataType) :
    Option (BitVec 64) → NumericResult
  | none => .undefined
  | some bits => .S_OK ⟨dataType, bits⟩

theorem storeWord_shift
    (left : CLR_RT_HeapBlock)
    (dataType : StackDataType)
    (isNarrow : dataType.isWide = false)
    (shift : (width : Nat) → BitVec width → Option (BitVec width)) :
    storeWord { left with dataType := dataType } (shift 32 left.u4) =
      shiftResult dataType (shifted dataType.isWide left shift) := by
  rw [shifted, isNarrow]
  cases shift 32 left.u4 with
  | none => simp [storeWord, shiftResult]
  | some word => simp [storeWord, shiftResult]

theorem storeBoth_shift
    (left : CLR_RT_HeapBlock)
    (dataType : StackDataType)
    (isWide : dataType.isWide)
    (shift : (width : Nat) → BitVec width → Option (BitVec width)) :
    storeBoth { left with dataType := dataType } (shift 64 left.numeric) =
      shiftResult dataType (shifted dataType.isWide left shift) := by
  rw [shifted, isWide]
  cases shift 64 left.numeric with
  | none => simp [storeBoth, shiftResult]
  | some words => simp [storeBoth, shiftResult]

theorem shifts_iff
    {operation : CLR_RT_HeapBlock → CLR_RT_HeapBlock → NumericResult}
    (shift : Bool → (width : Nat) → BitVec width → Option (BitVec width))
    (isShift : ∀ dataType right', right'.u4 = right.u4 →
      operation { left with dataType := dataType } right' =
        shiftResult dataType
          (shifted dataType.isWide left (shift dataType.isSigned))) :
    Shifts operation left right ↔
      ∃ bits, ∀ signed,
        shifted left.dataType.isWide left (shift signed) = some bits := by
  constructor
  · rintro ⟨bits, same⟩
    have forType (dataType : StackDataType)
        (sameWidth : dataType.isWide = left.dataType.isWide) :
        shifted left.dataType.isWide left (shift dataType.isSigned) =
          some bits := by
      have isResult := same dataType right sameWidth rfl
      rw [isShift dataType right rfl, sameWidth] at isResult
      cases isBits : shifted left.dataType.isWide left
          (shift dataType.isSigned) with
      | none =>
          rw [isBits] at isResult
          cases isResult
      | some bits' =>
          rw [isBits] at isResult
          cases isResult
          rfl
    refine ⟨bits, fun signed => ?_⟩
    cases isWide : left.dataType.isWide with
    | false =>
        rw [isWide] at forType
        cases signed with
        | false => exact forType DATATYPE_U4 rfl
        | true => exact forType DATATYPE_I4 rfl
    | true =>
        rw [isWide] at forType
        cases signed with
        | false => exact forType DATATYPE_U8 rfl
        | true => exact forType DATATYPE_I8 rfl
  · rintro ⟨bits, isBits⟩
    refine ⟨bits, fun dataType right' sameWidth sameCount => ?_⟩
    rw [isShift dataType right' sameCount, sameWidth, isBits dataType.isSigned]
    rfl

theorem numericShl_eq
    (dataType : StackDataType)
    (right' : CLR_RT_HeapBlock)
    (sameCount : right'.u4 = right.u4) :
    NumericShl { left with dataType := dataType } right' =
      shiftResult dataType (shifted dataType.isWide left
        (fun _ word => shiftLeft word right.u4.toNat)) := by
  unfold NumericShl
  rw [sameCount]
  cases dataType with
  | DATATYPE_I4 =>
      exact storeWord_shift left DATATYPE_I4 rfl fun _ word =>
        shiftLeft word right.u4.toNat
  | DATATYPE_U4 =>
      exact storeWord_shift left DATATYPE_U4 rfl fun _ word =>
        shiftLeft word right.u4.toNat
  | DATATYPE_I8 =>
      exact storeBoth_shift left DATATYPE_I8 rfl fun _ word =>
        shiftLeft word right.u4.toNat
  | DATATYPE_U8 =>
      exact storeBoth_shift left DATATYPE_U8 rfl fun _ word =>
        shiftLeft word right.u4.toNat

theorem numericShr_eq
    (dataType : StackDataType)
    (right' : CLR_RT_HeapBlock)
    (sameCount : right'.u4 = right.u4) :
    NumericShr { left with dataType := dataType } right' =
      shiftResult dataType (shifted dataType.isWide left
        (fun _ word => shiftRight dataType.isSigned word right.u4.toNat)) := by
  unfold NumericShr
  rw [sameCount]
  cases dataType with
  | DATATYPE_I4 =>
      exact storeWord_shift left DATATYPE_I4 rfl fun _ word =>
        shiftRight true word right.u4.toNat
  | DATATYPE_U4 =>
      exact storeWord_shift left DATATYPE_U4 rfl fun _ word =>
        shiftRight false word right.u4.toNat
  | DATATYPE_I8 =>
      exact storeBoth_shift left DATATYPE_I8 rfl fun _ word =>
        shiftRight true word right.u4.toNat
  | DATATYPE_U8 =>
      exact storeBoth_shift left DATATYPE_U8 rfl fun _ word =>
        shiftRight false word right.u4.toNat

theorem numericShrUn_eq
    (dataType : StackDataType)
    (right' : CLR_RT_HeapBlock)
    (sameCount : right'.u4 = right.u4) :
    NumericShrUn { left with dataType := dataType } right' =
      shiftResult dataType (shifted dataType.isWide left
        (fun _ word => shiftRight false word right.u4.toNat)) := by
  unfold NumericShrUn
  rw [sameCount]
  cases dataType with
  | DATATYPE_I4 =>
      exact storeWord_shift left DATATYPE_I4 rfl fun _ word =>
        shiftRight false word right.u4.toNat
  | DATATYPE_U4 =>
      exact storeWord_shift left DATATYPE_U4 rfl fun _ word =>
        shiftRight false word right.u4.toNat
  | DATATYPE_I8 =>
      exact storeBoth_shift left DATATYPE_I8 rfl fun _ word =>
        shiftRight false word right.u4.toNat
  | DATATYPE_U8 =>
      exact storeBoth_shift left DATATYPE_U8 rfl fun _ word =>
        shiftRight false word right.u4.toNat

/-- A shift that takes no account of the data type has bits whenever it has a
meaning. -/
theorem exists_shifted_iff
    {isWide : Bool}
    {count : Nat}
    {result : (width : Nat) → BitVec width → BitVec width} :
    (∃ bits, ∀ _signed : Bool, shifted isWide left (fun width word =>
        if count < width then some (result width word) else none) =
          some bits) ↔
      count < if isWide then 64 else 32 := by
  unfold shifted
  cases isWide with
  | false =>
      by_cases less : count < 32
      · simp [less]
      · simp [less]
  | true =>
      by_cases less : count < 64
      · simp [less]
      · simp [less]

theorem word_append_inj
    (high : BitVec 32)
    {low low' : BitVec 32} :
    high ++ low = high ++ low' ↔ low = low' := by
  constructor
  · intro same
    rw [← BitVec.setWidth_append_eq_right (a := high) (b := low), same,
      BitVec.setWidth_append_eq_right]
  · rintro rfl
    rfl

/-- Both shifts to the right have the same bits if no sign is moved. -/
theorem exists_shiftedRight_iff
    {count : Nat} :
    (∃ bits, ∀ signed : Bool, shifted left.dataType.isWide left
        (fun _ word => shiftRight signed word count) = some bits) ↔
      (count < if left.dataType.isWide then 64 else 32) ∧
        (count = 0 ∨ 0 ≤ left.integer true) := by
  unfold CLR_RT_HeapBlock.integer integerIn shifted shiftRight
  cases left.dataType.isWide with
  | false =>
      by_cases less : count < 32
      · have same := ushiftRight_eq_sshiftRight_iff left.u4 less
        rw [← word_append_inj (left.numeric.extractLsb' 32 32)] at same
        simpa [less, integerOf, eq_comm] using same
      · simp [less]
  | true =>
      by_cases less : count < 64
      · have same :=
          ushiftRight_eq_sshiftRight_iff left.numeric less
        simpa [less, integerOf, eq_comm] using same
      · simp [less]

end Shifting

/-- Division and shifts to the left and of unsigned integers do what is asked
of them unless they have no meaning or the operands differ in width, those of
signed integers only where the data type makes no difference. -/
theorem integerOperation_holds_iff
    (operation : IntegerOperation)
    (left right : CLR_RT_HeapBlock) :
    operation.Holds left right ↔ operation.HoldsWhen left right := by
  cases operation with
  | division signed => exact division_holds_iff
  | shl => exact (shifts_iff _ numericShl_eq).trans exists_shifted_iff
  | shr =>
      exact (shifts_iff (fun signed _ word =>
        shiftRight signed word right.u4.toNat) numericShr_eq).trans
          exists_shiftedRight_iff
  | shrUn => exact (shifts_iff _ numericShrUn_eq).trans exists_shifted_iff

/-- The least integer is divided by minus one. -/
theorem integerOperation_undefined :
    ¬∀ (operation : IntegerOperation) (left right : CLR_RT_HeapBlock),
      operation.Holds left right := by
  intro holds
  have divides : Divides true ⟨DATATYPE_I4, 0x80000000⟩
      ⟨DATATYPE_I4, 0xFFFFFFFF⟩ .undefined .undefined :=
    holds (.division true) ⟨DATATYPE_I4, 0x80000000⟩
      ⟨DATATYPE_I4, 0xFFFFFFFF⟩
  rcases divides with ⟨-, fails, -⟩ | ⟨-, -, -, _, _, fails, -⟩ |
    ⟨_, _, succeeds, -⟩
  · cases fails
  · cases fails
  · cases succeeds

end HeapBlocks

end NanoClr
