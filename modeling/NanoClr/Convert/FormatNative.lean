import NanoClr.Convert.Sprintf

/-!
# Formatting integers

The native method composes a format string from the requested parameters and
prints the value with it. Both strings go into arrays of a fixed size; here they
are as long as they come out.
-/

namespace NanoClr

namespace Convert

/-- The data types of the integral values. -/
inductive IntegralType where
  | I1
  | U1
  | I2
  | U2
  | I4
  | U4
  | I8
  | U8
  deriving DecidableEq

namespace IntegralType

/-- The width of a type. -/
def bits : IntegralType → Nat
  | I1 | U1 => 8
  | I2 | U2 => 16
  | I4 | U4 => 32
  | I8 | U8 => 64

/-- The type has negative numbers. -/
def isSigned : IntegralType → Bool
  | I1 | I2 | I4 | I8 => true
  | U1 | U2 | U4 | U8 => false

/-- The type has 64 bits. -/
def isLong : IntegralType → Bool
  | I8 | U8 => true
  | _ => false

/-- The numbers of a data type. -/
def Contains (dt : IntegralType) (number : Int) : Prop :=
  if dt.isSigned then
    -2 ^ (dt.bits - 1) ≤ number ∧ number < 2 ^ (dt.bits - 1)
  else 0 ≤ number ∧ number < 2 ^ dt.bits

end IntegralType

/-- Compose the format string according to the requested parameters. -/
def nf_GetFormatString
    (formatCh : Char)
    (precision : Int)
    (isLong isFloat isSigned : Bool) : List Char :=
  if formatCh = 'X' ∨ formatCh = 'x' then
    ['%', '0'] ++ decimal precision ++ (if isLong then ['l', 'l'] else []) ++
      ['X']
  else
    ['%'] ++ (if isFloat then ['.'] else if isSigned then ['-', '0'] else ['0']) ++
      decimal precision ++
      (if isLong then ['l', 'l'] else if isFloat then ['f'] else []) ++
      (if isFloat then [] else if isSigned then ['d'] else ['u'])

/-- The two strings, without their terminators. -/
structure Formatted where
  formatStr : List Char
  result : List Char
  deriving DecidableEq

/-- The precision that is used. -/
def precisionOf (formatCh : Char) (precision : Int) : Int :=
  if formatCh = 'G' ∧ precision = 0 then 1 else precision

/-- `FormatNative` of an integral value. -/
def FormatNative
    (dt : IntegralType)
    (value : Int)
    (formatCh : Char)
    (precision : Int) : Option Formatted :=
  let precision := precisionOf formatCh precision
  let formatStr := nf_GetFormatString formatCh precision dt.isLong false dt.isSigned
  (sprintf formatStr value).map fun result => { formatStr, result }

/-! ## Numbers as texts -/

/-- A text is an optional minus sign and nothing but digits, at least as many
as the precision asks for, that denote a number. -/
def Denotes
    (base : Nat)
    (negative : Bool)
    (number : Nat)
    (precision : Int)
    (text : List Char) : Prop :=
  ∃ digits : List Nat, digits ≠ [] ∧ (∀ digit ∈ digits, digit < base) ∧
    precision ≤ digits.length ∧ ofNumeral base digits = number ∧
    text = (if negative then ['-'] else []) ++ digits.map digitCharacter

theorem idxOf_digitCharacter
    {digit : Nat}
    (small : digit < 16) :
    digitCharacters.idxOf (digitCharacter digit) = digit := by
  revert digit
  decide

theorem digitCharacter_ne_space
    {digit : Nat}
    (small : digit < 16) :
    digitCharacter digit ≠ ' ' := by
  revert digit
  decide

section Denotes

variable
  {base number : Nat}
  {negative : Bool}
  {precision : Int}
  {digits : List Nat}

theorem map_digitCharacter_injective
    {other : List Nat}
    (small : ∀ digit ∈ digits, digit < 16)
    (otherSmall : ∀ digit ∈ other, digit < 16)
    (same : digits.map digitCharacter = other.map digitCharacter) :
    digits = other := by
  have back : ∀ {digits : List Nat}, (∀ digit ∈ digits, digit < 16) →
      (digits.map digitCharacter).map digitCharacters.idxOf = digits := by
    intro digits small
    have inverse : ∀ digit ∈ digits,
        (digitCharacters.idxOf ∘ digitCharacter) digit = id digit :=
      fun digit member => idxOf_digitCharacter (small digit member)
    rw [List.map_map, List.map_congr_left inverse, List.map_id]
  rw [← back small, same, back otherSmall]

theorem denotes_iff
    (atMost : base ≤ 16)
    (small : ∀ digit ∈ digits, digit < base)
    (notEmpty : digits ≠ []) :
    Denotes base negative number precision
        ((if negative then ['-'] else []) ++ digits.map digitCharacter) ↔
      ofNumeral base digits = number ∧ precision ≤ digits.length := by
  constructor
  · rintro ⟨other, -, otherSmall, enough, isNumber, same⟩
    have equal : digits = other := map_digitCharacter_injective
      (fun digit member => Nat.lt_of_lt_of_le (small digit member) atMost)
      (fun digit member => Nat.lt_of_lt_of_le (otherSmall digit member) atMost)
      (List.append_cancel_left same)
    rw [equal]
    exact ⟨isNumber, enough⟩
  · rintro ⟨isNumber, enough⟩
    exact ⟨digits, notEmpty, small, enough, isNumber, rfl⟩

/-- No text with a space at its end denotes a number. -/
theorem not_denotes_space
    (atMost : base ≤ 16)
    (text : List Char) :
    ¬Denotes base negative number precision (text ++ [' ']) := by
  rintro ⟨digits, notEmpty, small, -, -, same⟩
  have mapped : digits.map digitCharacter ≠ [] := by
    rw [ne_eq, List.map_eq_nil_iff]
    exact notEmpty
  have last := congrArg List.getLast? same
  rw [List.getLast?_append_of_ne_nil text (List.cons_ne_nil ' ' []),
    List.getLast?_append_of_ne_nil _ mapped] at last
  obtain ⟨digit, member, isSpace⟩ :=
    List.mem_map.mp (List.mem_of_getLast? last.symm)
  exact digitCharacter_ne_space
    (Nat.lt_of_lt_of_le (small digit member) atMost) isSpace

end Denotes

/-! ## Fields -/

section Fields

variable
  {specification : Specification}
  {base number printed : Nat}
  {negative : Bool}
  {precision : Int}

/-- A field that is filled with zeros denotes the number that is printed. -/
theorem denotes_zeroPadded
    (many : 1 < base)
    (atMost : base ≤ 16)
    (right : specification.leftJustified = false)
    (zeros : specification.zeroPadded = true) :
    Denotes base false number precision
        (specification.pad [] (digitsOf base printed)) ↔
      printed = number ∧
        precision ≤ max specification.width (numeral base printed).length := by
  have field : specification.pad [] (digitsOf base printed) =
      (if false then ['-'] else []) ++
        (List.replicate (specification.width - (numeral base printed).length) 0 ++
          numeral base printed).map digitCharacter := by
    rw [Specification.pad, right, zeros, digitsOf, List.nil_append,
      List.length_map, List.map_append, List.map_replicate]
    rfl
  rw [field, denotes_iff atMost, ofNumeral_zeros, ofNumeral_numeral,
    List.length_append, List.length_replicate]
  · apply and_congr_right
    intro _
    omega
  · intro digit member
    rcases List.mem_append.mp member with zero | isDigit
    · rw [List.eq_of_mem_replicate zero]
      omega
    · exact numeral_lt many digit isDigit
  · exact List.append_ne_nil_of_right_ne_nil _ numeral_ne_nil

/-- A field that is filled with spaces denotes the number that is printed if
there is nothing to fill. -/
theorem denotes_leftJustified
    (many : 1 < base)
    (atMost : base ≤ 16)
    (left : specification.leftJustified = true) :
    Denotes base negative number precision
        (specification.pad (if negative then ['-'] else [])
          (digitsOf base printed)) ↔
      printed = number ∧ precision ≤ (numeral base printed).length ∧
        specification.width ≤
          (if negative then 1 else 0) + (numeral base printed).length := by
  have size : ((if negative then ['-'] else []) ++
      digitsOf base printed).length =
        (if negative then 1 else 0) + (numeral base printed).length := by
    rw [List.length_append, digitsOf, List.length_map]
    cases negative <;> rfl
  rw [Specification.pad, left, size]
  by_cases fits : specification.width ≤
      (if negative then 1 else 0) + (numeral base printed).length
  · rw [Nat.sub_eq_zero_of_le fits]
    simp only [if_true, List.replicate_zero, List.append_nil]
    rw [digitsOf, denotes_iff atMost (numeral_lt many) numeral_ne_nil,
      ofNumeral_numeral, and_iff_left fits]
  · obtain ⟨missing, isMissing⟩ := Nat.exists_eq_succ_of_ne_zero
      (Nat.sub_ne_zero_of_lt (Nat.lt_of_not_le fits))
    rw [isMissing, List.replicate_succ', if_pos rfl, ← List.append_assoc]
    apply iff_of_false
    · exact not_denotes_space atMost _
    · exact fun all => fits all.2.2

theorem length_pad
    (sign digits : List Char) :
    (specification.pad sign digits).length =
      max specification.width (sign ++ digits).length := by
  rw [Specification.pad]
  split
  · rw [List.length_append, List.length_replicate]
    omega
  · split <;>
    · simp only [List.length_append, List.length_replicate]
      omega

end Fields

/-! ## What is printed -/

/-- The specification of a format string. -/
def specificationOf
    (leftJustified isLong : Bool)
    (conversion : Char)
    (precision : Int) : Specification :=
  { leftJustified := leftJustified ∨ precision < 0
    zeroPadded := true
    width := precision.natAbs
    isLong
    conversion }

section Printed

variable
  {dt : IntegralType}
  {value precision : Int}
  {formatCh : Char}

theorem sprintf_eq
    {flags : List Char}
    (areFlags : ∀ flag ∈ flags, isFlag flag = true)
    (hasZero : '0' ∈ flags)
    (precision : Int)
    (isLong : Bool)
    {conversion : Char}
    (isConversion : conversion ∈ ['d', 'u', 'X'])
    (value : Int) :
    sprintf ('%' :: (flags ++ decimal precision ++
        lengthAndConversion isLong conversion)) value =
      (specificationOf ('-' ∈ flags) isLong conversion precision).print value := by
  rw [sprintf, read_decimal areFlags hasZero precision isLong isConversion]
  simp [specificationOf]

/-- What is printed for `X`. -/
theorem formatNative_hexadecimal :
    FormatNative dt value 'X' precision =
      some
        { formatStr := '%' :: (['0'] ++ decimal precision ++
            lengthAndConversion dt.isLong 'X')
          result := (specificationOf false dt.isLong 'X' precision).pad []
            (digitsOf 16 ((specificationOf false dt.isLong 'X'
              precision).unsigned value)) } := by
  have noG : precisionOf 'X' precision = precision :=
    if_neg fun both => absurd both.1 (by decide)
  have format : nf_GetFormatString 'X' precision dt.isLong false dt.isSigned =
      '%' :: (['0'] ++ decimal precision ++
        lengthAndConversion dt.isLong 'X') := by
    simp [nf_GetFormatString, lengthAndConversion]
  simp only [FormatNative, noG, format]
  rw [sprintf_eq (List.forall_mem_singleton.mpr rfl) (by decide) precision
    dt.isLong (by decide)]
  rfl

/-- What is printed for the signed types otherwise. -/
theorem formatNative_signed
    (isFormat : formatCh ≠ 'X' ∧ formatCh ≠ 'x')
    (signed : dt.isSigned = true) :
    FormatNative dt value formatCh precision =
      some
        { formatStr := '%' :: (['-', '0'] ++
            decimal (precisionOf formatCh precision) ++
              lengthAndConversion dt.isLong 'd')
          result := (specificationOf true dt.isLong 'd'
            (precisionOf formatCh precision)).pad (signOf value)
              (digitsOf 10 value.natAbs) } := by
  have format : nf_GetFormatString formatCh (precisionOf formatCh precision)
      dt.isLong false dt.isSigned =
        '%' :: (['-', '0'] ++ decimal (precisionOf formatCh precision) ++
          lengthAndConversion dt.isLong 'd') := by
    simp [nf_GetFormatString, lengthAndConversion, isFormat, signed]
  simp only [FormatNative, format]
  rw [sprintf_eq
    (List.forall_mem_cons.mpr ⟨rfl, List.forall_mem_singleton.mpr rfl⟩)
    (by decide) _ dt.isLong (by decide)]
  rfl

/-- What is printed for the unsigned types otherwise. -/
theorem formatNative_unsigned
    (isFormat : formatCh ≠ 'X' ∧ formatCh ≠ 'x')
    (unsigned : dt.isSigned = false) :
    FormatNative dt value formatCh precision =
      some
        { formatStr := '%' :: (['0'] ++
            decimal (precisionOf formatCh precision) ++
              lengthAndConversion dt.isLong 'u')
          result := (specificationOf false dt.isLong 'u'
            (precisionOf formatCh precision)).pad []
              (digitsOf 10 ((specificationOf false dt.isLong 'u'
                (precisionOf formatCh precision)).unsigned value)) } := by
  have format : nf_GetFormatString formatCh (precisionOf formatCh precision)
      dt.isLong false dt.isSigned =
        '%' :: (['0'] ++ decimal (precisionOf formatCh precision) ++
          lengthAndConversion dt.isLong 'u') := by
    simp [nf_GetFormatString, lengthAndConversion, isFormat, unsigned]
  simp only [FormatNative, format]
  rw [sprintf_eq (List.forall_mem_singleton.mpr rfl) (by decide) _ dt.isLong
    (by decide)]
  rfl

end Printed

/-! ## The buffers -/

/-- The widths of a field of digits with zeros in front. -/
def FieldFits (isLong : Bool) (width : Int) (count : Nat) : Prop :=
  0 ≤ width ∧ width ≤ 23 ∨
    width < 0 ∧ -width ≤ count ∧ (isLong = true → -width ≤ 9)

/-- The widths of a field of a signed number, which has spaces behind. -/
def SignedFieldFits
    (isLong negative : Bool)
    (width : Int)
    (count : Nat) : Prop :=
  0 ≤ width ∧ width ≤ count ∧ (isLong = true → width ≤ 9) ∨
    width < 0 ∧ isLong = false ∧ -width ≤ (if negative then 1 else 0) + count

/-- The format string is inside its 8 bytes and the result inside its 24. -/
def Formatted.Inside (formatted : Formatted) : Prop :=
  formatted.formatStr.length + 1 ≤ 8 ∧ formatted.result.length + 1 ≤ 24

theorem length_decimal (number : Int) :
    (decimal number).length =
      (if number < 0 then 1 else 0) + (numeral 10 number.natAbs).length := by
  rw [decimal, List.length_append, digitsOf, List.length_map, signOf]
  split <;> rfl

theorem length_lengthAndConversion
    (isLong : Bool)
    (conversion : Char) :
    (lengthAndConversion isLong conversion).length =
      if isLong then 3 else 1 := by
  cases isLong <;> rfl

/-- How many digits a small number has. -/
theorem length_numeral_ten (number : Nat) :
    let count := (numeral 10 number).length
    0 < count ∧ (count ≤ 1 ↔ number < 10) ∧ (count ≤ 2 ↔ number < 100) ∧
      (count ≤ 3 ↔ number < 1000) ∧ (count ≤ 4 ↔ number < 10000) :=
  ⟨numeral_pos, numeral_length_le_iff (by decide) (by decide),
    numeral_length_le_iff (by decide) (by decide),
    numeral_length_le_iff (by decide) (by decide),
    numeral_length_le_iff (by decide) (by decide)⟩

section Buffers

variable
  {isLong negative : Bool}
  {conversion : Char}
  {width precision : Int}
  {base number printed : Nat}

/-- A field of digits, with zeros in front unless the width is negative. -/
theorem unsignedField_iff
    (many : 1 < base)
    (atMost : base ≤ 16)
    (asked : precision = width ∨ precision = 0 ∧ width = 1)
    (narrow : isLong = false → (numeral base printed).length ≤ 10)
    (wide : (numeral base printed).length ≤ 20) :
    let specification := specificationOf false isLong conversion width
    (Formatted.Inside
        { formatStr := '%' :: (['0'] ++ decimal width ++
            lengthAndConversion isLong conversion)
          result := specification.pad [] (digitsOf base printed) } ∧
      Denotes base false number precision
        (specification.pad [] (digitsOf base printed))) ↔
      printed = number ∧
        FieldFits isLong width (numeral base printed).length := by
  intro specification
  have positive : 0 < (numeral base printed).length := numeral_pos
  obtain ⟨some_, one, two, three, four⟩ := length_numeral_ten width.natAbs
  have isWidth : specification.width = width.natAbs := rfl
  have isLeft : specification.leftJustified = decide (width < 0) := by
    simp [specification, specificationOf]
  rw [Formatted.Inside, FieldFits]
  simp only [length_pad, List.length_cons, List.length_append, List.length_nil,
    length_decimal, length_lengthAndConversion, isWidth, Nat.add_one_le_iff,
    max_lt_iff]
  by_cases left : width < 0
  · have denotes : Denotes base false number precision
        (specification.pad [] (digitsOf base printed)) ↔ _ :=
      denotes_leftJustified many atMost (isLeft.trans (decide_eq_true left))
    rw [denotes, isWidth, digitsOf, List.length_map]
    cases isLong <;>
      simp only [left, if_true, if_false, Bool.false_eq_true, forall_const,
        false_implies, Nat.zero_add, true_and, and_true] at narrow ⊢ <;>
      omega
  · rw [denotes_zeroPadded many atMost (isLeft.trans (decide_eq_false left)) rfl,
      isWidth, digitsOf, List.length_map, Nat.cast_max, le_max_iff]
    cases isLong <;>
      simp only [left, if_true, if_false, Bool.false_eq_true, forall_const,
        false_implies, Nat.zero_add, and_true, false_and, or_false] at narrow ⊢ <;>
      omega

/-- A field of a signed number, with spaces behind. -/
theorem signedField_iff
    (asked : precision = width ∨ precision = 0 ∧ width = 1)
    (narrow : isLong = false → (numeral 10 printed).length ≤ 10)
    (wide : (numeral 10 printed).length ≤ 19) :
    let specification := specificationOf true isLong conversion width
    (Formatted.Inside
        { formatStr := '%' :: (['-', '0'] ++ decimal width ++
            lengthAndConversion isLong conversion)
          result := specification.pad (if negative then ['-'] else [])
            (digitsOf 10 printed) } ∧
      Denotes 10 negative number precision
        (specification.pad (if negative then ['-'] else [])
          (digitsOf 10 printed))) ↔
      printed = number ∧
        SignedFieldFits isLong negative width (numeral 10 printed).length := by
  intro specification
  have positive : 0 < (numeral 10 printed).length := numeral_pos
  obtain ⟨some_, one, two, three, four⟩ := length_numeral_ten width.natAbs
  have isWidth : specification.width = width.natAbs := rfl
  have sign : (if negative then ['-'] else []).length =
      if negative then 1 else 0 := by
    cases negative <;> rfl
  rw [Formatted.Inside, SignedFieldFits,
    denotes_leftJustified (by decide) (by decide) rfl]
  simp only [length_pad, List.length_cons, List.length_append, List.length_nil,
    length_decimal, length_lengthAndConversion, isWidth, sign, digitsOf,
    List.length_map, Nat.add_one_le_iff, max_lt_iff]
  by_cases left : width < 0 <;> cases isLong <;> cases negative <;>
    simp only [left, if_true, if_false, Bool.false_eq_true, Bool.true_eq_false,
      forall_const, false_implies, Nat.zero_add, true_and, and_true, false_and,
      and_false, or_false] at narrow ⊢ <;>
    omega

end Buffers

/-! ## The method -/

/-- The method stays inside its buffers and returns a text that denotes the
value: for `X` what its own bits are, otherwise the number itself. -/
def FormatsRight
    (dt : IntegralType)
    (value : Int)
    (formatCh : Char)
    (precision : Int) : Prop :=
  ∃ formatted, FormatNative dt value formatCh precision = some formatted ∧
    formatted.Inside ∧
    if formatCh = 'X' then
      Denotes 16 false (value % 2 ^ dt.bits).toNat precision formatted.result
    else Denotes 10 (value < 0) value.natAbs precision formatted.result

/-- The condition on the value and the precision. -/
def FormatFits
    (dt : IntegralType)
    (value : Int)
    (formatCh : Char)
    (precision : Int) : Prop :=
  if formatCh = 'X' then
    (0 ≤ value ∨ 32 ≤ dt.bits) ∧
      FieldFits dt.isLong precision
        (numeral 16 (value % 2 ^ dt.bits).toNat).length
  else if dt.isSigned then
    SignedFieldFits dt.isLong (value < 0) (precisionOf formatCh precision)
      (numeral 10 value.natAbs).length
  else
    FieldFits dt.isLong (precisionOf formatCh precision)
      (numeral 10 value.natAbs).length

theorem FormatsRight.of_formatted
    {dt : IntegralType}
    {value precision : Int}
    {formatCh : Char}
    {formatted : Formatted}
    (isFormatted : FormatNative dt value formatCh precision = some formatted) :
    FormatsRight dt value formatCh precision ↔
      formatted.Inside ∧
        if formatCh = 'X' then
          Denotes 16 false (value % 2 ^ dt.bits).toNat precision formatted.result
        else Denotes 10 (value < 0) value.natAbs precision formatted.result := by
  rw [FormatsRight, isFormatted]
  simp only [Option.some_inj, exists_eq_left']

theorem precisionOf_asked (formatCh : Char) (precision : Int) :
    precision = precisionOf formatCh precision ∨
      precision = 0 ∧ precisionOf formatCh precision = 1 := by
  rw [precisionOf]
  split
  next generic => exact .inr ⟨generic.2, rfl⟩
  next other => exact .inl rfl

theorem length_numeral_le
    {base number : Nat}
    (count : Nat)
    (many : 1 < base)
    (positive : 0 < count)
    (small : number < base ^ count) :
    (numeral base number).length ≤ count :=
  (numeral_length_le_iff many positive).mpr small

/-- The bounds of the numbers of a data type. -/
theorem IntegralType.bounds
    {dt : IntegralType}
    {value : Int}
    (contained : dt.Contains value) :
    value.natAbs < 2 ^ 64 ∧
      (dt.isLong = false → value.natAbs < 2 ^ 32) ∧
      (dt.isSigned = true → value.natAbs ≤ 2 ^ 63) ∧
      (dt.isSigned = false → 0 ≤ value) := by
  rw [IntegralType.Contains] at contained
  cases dt <;>
    simp only [IntegralType.isLong, IntegralType.bits, IntegralType.isSigned,
      Bool.false_eq_true, Bool.true_eq_false, if_true, if_false, forall_const,
      false_implies, true_and, and_true] at contained ⊢ <;>
    omega

/-- The bits that are printed are those of the value unless a type of less
than 32 bits is extended by its sign. -/
theorem unsigned_eq_iff
    {dt : IntegralType}
    {value : Int}
    (contained : dt.Contains value)
    (conversion : Char)
    (precision : Int) :
    (specificationOf false dt.isLong conversion precision).unsigned value =
        (value % 2 ^ dt.bits).toNat ↔
      0 ≤ value ∨ 32 ≤ dt.bits := by
  rw [IntegralType.Contains] at contained
  cases dt <;>
    simp only [Specification.unsigned, specificationOf, IntegralType.isLong,
      IntegralType.bits, IntegralType.isSigned, Bool.false_eq_true, if_true,
      if_false, true_iff] at contained ⊢ <;>
    omega

theorem formatNative_right_iff
    {dt : IntegralType}
    {value : Int}
    (contained : dt.Contains value)
    {formatCh : Char}
    (isFormat : formatCh ∈ ['D', 'G', 'X'])
    (precision : Int) :
    FormatsRight dt value formatCh precision ↔
      FormatFits dt value formatCh precision := by
  by_cases hexadecimal : formatCh = 'X'
  · rw [hexadecimal, FormatsRight.of_formatted formatNative_hexadecimal,
      FormatFits, if_pos rfl, if_pos rfl, ← unsigned_eq_iff contained 'X' precision]
    apply (unsignedField_iff (by decide) (by decide) (.inl rfl) _ _).trans
    · apply and_congr_right
      intro same
      rw [same]
    · intro narrow
      apply Nat.le_trans (length_numeral_le 8 (by decide) (by decide) _)
        (by decide)
      simp only [Specification.unsigned, specificationOf, narrow]
      simp
      omega
    · apply Nat.le_trans (length_numeral_le 16 (by decide) (by decide) _)
        (by decide)
      simp only [Specification.unsigned]
      split <;> omega
  · have noX : formatCh ≠ 'X' ∧ formatCh ≠ 'x' := by
      refine ⟨hexadecimal, ?_⟩
      rintro rfl
      revert isFormat
      decide
    obtain ⟨wide, narrow, small, positive⟩ := IntegralType.bounds contained
    cases signed : dt.isSigned with
    | true =>
        have sign : signOf value = if decide (value < 0) then ['-'] else [] := by
          rw [signOf]
          simp only [decide_eq_true_eq]
        have digits := small signed
        rw [FormatsRight.of_formatted (formatNative_signed noX signed), FormatFits,
          if_neg hexadecimal, if_neg hexadecimal, if_pos signed, sign]
        apply (signedField_iff (precisionOf_asked formatCh precision) _ _).trans
        · exact and_iff_right rfl
        · intro short
          exact length_numeral_le 10 (by decide) (by decide)
            (Nat.lt_trans (narrow short) (by decide))
        · exact length_numeral_le 19 (by decide) (by decide)
            (Nat.lt_of_le_of_lt digits (by decide))
    | false =>
        have notNegative := positive signed
        have same : (specificationOf false dt.isLong 'u'
            (precisionOf formatCh precision)).unsigned value = value.natAbs := by
          cases isLong : dt.isLong with
          | true =>
              show (value % (2 ^ 64)).toNat = value.natAbs
              omega
          | false =>
              have short := narrow isLong
              show (value % (2 ^ 32)).toNat = value.natAbs
              omega
        rw [FormatsRight.of_formatted (formatNative_unsigned noX signed), FormatFits,
          if_neg hexadecimal, if_neg hexadecimal,
          if_neg (show ¬dt.isSigned = true by rw [signed]; decide), same,
          decide_eq_false (not_lt.mpr notNegative)]
        apply (unsignedField_iff (by decide) (by decide)
          (precisionOf_asked formatCh precision) _ _).trans
        · exact and_iff_right rfl
        · intro short
          exact length_numeral_le 10 (by decide) (by decide)
            (Nat.lt_trans (narrow short) (by decide))
        · exact length_numeral_le 20 (by decide) (by decide)
            (Nat.lt_trans wide (by decide))

/-- The number 5 with three digits. -/
theorem formatNative_right_iff_threeDigits :
    FormatsRight .U1 5 'D' 3 ↔ FormatFits .U1 5 'D' 3 :=
  formatNative_right_iff
    (by simp [IntegralType.Contains, IntegralType.isSigned, IntegralType.bits])
    (by decide) 3

/-- A byte below zero is printed with 32 bits, a signed number is filled up
with spaces, and for a long one the format string has no room. -/
theorem formatNative_right_extended :
    ¬FormatsRight .I1 (-128) 'X' 2 ∧
      ¬FormatsRight .I4 5 'D' 3 ∧
      ¬FormatsRight .I8 5 'D' 10 := by
  have digits : (numeral 10 (5 : Int).natAbs).length ≤ 1 :=
    length_numeral_le 1 (by decide) (by decide) (by decide)
  have negative : signOf 5 = if decide ((5 : Int) < 0) then ['-'] else [] := rfl
  refine ⟨?_, ?_, ?_⟩
  · rw [FormatsRight.of_formatted formatNative_hexadecimal, if_pos rfl]
    intro right
    have few : (numeral 16
        ((specificationOf false false 'X' 2).unsigned (-128))).length ≤ 8 :=
      length_numeral_le 8 (by decide) (by decide) (by decide)
    have fits := (unsignedField_iff (by decide) (by decide) (.inl rfl)
      (fun _ => Nat.le_trans few (by decide)) (Nat.le_trans few (by decide))).mp
        right
    exact absurd fits.1 (by decide)
  · rw [FormatsRight.of_formatted (formatNative_signed (by decide) rfl),
      if_neg (by decide), negative]
    intro right
    have fits := (signedField_iff (precisionOf_asked 'D' 3)
      (fun _ => Nat.le_trans digits (by decide))
      (Nat.le_trans digits (by decide))).mp right
    have width : precisionOf 'D' 3 = 3 := by decide
    rw [SignedFieldFits, width] at fits
    omega
  · rw [FormatsRight.of_formatted (formatNative_signed (by decide) rfl),
      if_neg (by decide), negative]
    intro right
    have fits := (signedField_iff (precisionOf_asked 'D' 10)
      (fun _ => Nat.le_trans digits (by decide))
      (Nat.le_trans digits (by decide))).mp right
    have width : precisionOf 'D' 10 = 10 := by decide
    rw [SignedFieldFits, width] at fits
    omega

end Convert

end NanoClr
