import NanoClr.Library.Numerals

/-!
# Conversion of strings to integers

The native method in both of its builds, over the characters of a string in
front of its terminator. One build calls `strtoll` and `strtoull`, which do
what the C standard says; the other one has loops of its own.
-/

namespace NanoClr

namespace Convert

/-- What a conversion ends with; it is undefined when a signed number overflows
or when a string is read behind its terminator. -/
inductive Conversion where
  | returned (result : Int)
  | outOfRange
  | invalidParameter
  | notImplemented
  | undefined
  deriving DecidableEq

/-- The conversion ends with an exception. -/
def Conversion.Raises : Conversion → Prop
  | returned _ => False
  | outOfRange => True
  | invalidParameter => True
  | notImplemented => True
  | undefined => False

/-- A result of signed arithmetic. -/
def int64? (number : Int) : Option Int :=
  if -2 ^ 63 ≤ number ∧ number < 2 ^ 63 then some number else none

/-- The bits of a number as a signed one. -/
def toInt64 (number : Int) : Int := (number + 2 ^ 63) % 2 ^ 64 - 2 ^ 63

/-- The bits of a number as an unsigned one. -/
def toUInt64 (number : Int) : Int := number % 2 ^ 64

/-! ## The standard's conversions -/

/-- `isspace` of the C library. -/
def isspace (character : UInt8) : Bool :=
  character = 0x20 || 0x09 ≤ character && character ≤ 0x0D

/-- The value of a digit or a letter; no base has that of other characters. -/
def digitValue (character : UInt8) : Nat :=
  if 0x30 ≤ character ∧ character ≤ 0x39 then character.toNat - 0x30
  else if 0x41 ≤ character ∧ character ≤ 0x5A then character.toNat - 0x41 + 10
  else if 0x61 ≤ character ∧ character ≤ 0x7A then character.toNat - 0x61 + 10
  else 36

/-- The character is a digit of the base. -/
def isDigit (base : Nat) (character : UInt8) : Bool := digitValue character < base

/-- What is converted, and what the end pointer points to. -/
structure Subject where
  negative : Bool
  magnitude : Nat
  endptr : List UInt8
  deriving DecidableEq

/-- The characters behind an optional sign. -/
def skipSign (str : List UInt8) : List UInt8 :=
  if str.head? = some 0x2D ∨ str.head? = some 0x2B then str.tail else str

/-- The characters behind an optional prefix. -/
def skipPrefix (base : Nat) : List UInt8 → List UInt8
  | zero :: x :: digit :: rest =>
      if base = 16 ∧ zero = 0x30 ∧ (x = 0x78 ∨ x = 0x58) ∧ isDigit 16 digit then
        digit :: rest
      else zero :: x :: digit :: rest
  | str => str

/-- The subject sequence for a base from 2 to 36; without one, the end pointer
is the string itself. -/
def subject? (base : Nat) (str : List UInt8) : Option Subject :=
  let str := str.dropWhile isspace
  let negative := str.head? = some 0x2D
  let str := skipPrefix base (skipSign str)
  let digits := str.takeWhile (isDigit base)
  if digits = [] then none
  else
    some
      { negative
        magnitude := ofNumeral base (digits.map digitValue)
        endptr := str.dropWhile (isDigit base) }

/-- `strtoll`: the number that the subject stands for, cut off at the bounds of
a signed 64-bit number. -/
def strtoll (subject : Subject) : Int :=
  let number : Int :=
    if subject.negative then -subject.magnitude else subject.magnitude
  if number < -2 ^ 63 then -2 ^ 63
  else if number ≥ 2 ^ 63 then 2 ^ 63 - 1
  else number

/-- `strtoull`: the number is cut off at the upper bound, and a minus sign wraps
it around. -/
def strtoull (subject : Subject) : Int :=
  if subject.magnitude ≥ 2 ^ 64 then 2 ^ 64 - 1
  else if subject.negative then toUInt64 (-subject.magnitude)
  else subject.magnitude

/-! ## The build for any base -/

/-- The character is a space. -/
def isSpace (character : UInt8) : Bool := character = 0x20

/-- The post processing for the bases 2, 8 and 16. -/
def postProcess
    (isSigned : Bool)
    (maxValue : Int)
    (radix : Nat)
    (result : Int) : Option Int :=
  if (radix = 2 ∨ radix = 8 ∨ radix = 16) ∧ isSigned = true ∧ result > maxValue then
    (int64? (maxValue + 1)).bind fun limit =>
      (int64? (limit * 2)).bind fun limit =>
        if result < limit then int64? (result - limit) else some result
  else some result

/-- The conversion with SUPPORT_ANY_BASE_CONVERSION: `strtoll` or `strtoull`,
and then the bounds. -/
def NativeToInt64AnyBase
    (str : List UInt8)
    (isSigned : Bool)
    (minValue maxValue : Int)
    (radix : Nat) : Conversion :=
  let isUInt64 : Bool := minValue = 0 ∧ maxValue = 0
  let isSigned := isSigned && !isUInt64
  let str := if isUInt64 then str.dropWhile isSpace else str
  if isUInt64 = true ∧ str.head? = some 0x2D then .outOfRange
  else
    match subject? radix str with
    | none => .invalidParameter
    | some subject =>
        let result :=
          if isSigned then strtoll subject else toInt64 (strtoull subject)
        if subject.endptr.dropWhile isSpace ≠ [] then .invalidParameter
        else
          match postProcess isSigned maxValue radix result with
          | none => .undefined
          | some result =>
              if isUInt64 = false ∧ isSigned = false ∧
                  toUInt64 result > toUInt64 maxValue then
                .outOfRange
              else if isUInt64 = false ∧ (result > maxValue ∨ result < minValue) then
                .outOfRange
              else .returned result

/-! ## The build for the bases 10 and 16 -/

/-- The loop over the characters, with the iterations that are left. -/
def GetIntegerPart : List UInt8 → Nat → Int → Option Int
  | _, 0, returnValue => some returnValue
  | [], _ + 1, _ => none
  | character :: str, length + 1, returnValue =>
      (int64? (returnValue * 10)).bind fun returnValue =>
        (int64? (returnValue + (character.toNat - 0x30))).bind fun returnValue =>
          if str = [] then some returnValue
          else GetIntegerPart str length returnValue

/-- `toupper` of the C library. -/
def toupper (character : UInt8) : UInt8 :=
  if 0x61 ≤ character ∧ character ≤ 0x7A then character - 0x20 else character

/-- The loop over the characters up to one that is invalid. -/
def hexadecimalPart : List UInt8 → Int → Int
  | [], returnValue => returnValue
  | character :: str, returnValue =>
      let c := toupper character
      if c < 0x30 ∨ c > 0x46 ∨ c > 0x39 ∧ c < 0x41 then returnValue
      else
        let c := c - 0x30
        let c := if c > 9 then c - 7 else c
        hexadecimalPart str (toInt64 (returnValue * 2 ^ 4) + c.toNat)

/-- `GetIntegerFromHexString`: a prefix is passed over, and the digits are added
up from the left. -/
def GetIntegerFromHexString (str : List UInt8) : Int :=
  if str.head? = some 0x30 ∧ str.tail.head? = some 0x78 then
    hexadecimalPart (str.drop 2) 0
  else hexadecimalPart str 0

/-- The conversion without SUPPORT_ANY_BASE_CONVERSION, for base 10 and base 16
only. -/
def NativeToInt64 (str : List UInt8) (radix : Nat) : Conversion :=
  if radix = 10 then
    let result :=
      if str.head? = some 0x2D then
        (GetIntegerPart str.tail 99 0).bind fun result => int64? (result * -1)
      else if str.head? = some 0x2B then GetIntegerPart str.tail 99 0
      else GetIntegerPart str 99 0
    match result with
    | none => .undefined
    | some result => .returned result
  else if radix = 16 then .returned (GetIntegerFromHexString str)
  else .notImplemented

/-! ## What a conversion is for -/

/-- An optionally signed numeral with spaces around it; one of base 16 may have
the prefix that the standard allows. -/
structure IntegerNumeral (radix : Nat) where
  spacesBefore : Nat
  sign : List UInt8
  isSign : sign ∈ [[], [0x2D], [0x2B]]
  basePrefix : List UInt8
  isPrefix : basePrefix = [] ∨
    radix = 16 ∧ basePrefix ∈ [[0x30, 0x78], [0x30, 0x58]]
  digits : List UInt8
  notEmpty : digits ≠ []
  areDigits : ∀ digit ∈ digits, isDigit radix digit = true
  spacesAfter : Nat

namespace IntegerNumeral

variable {radix : Nat}

/-- The characters of a numeral. -/
def text (numeral : IntegerNumeral radix) : List UInt8 :=
  List.replicate numeral.spacesBefore 0x20 ++
    (numeral.sign ++ (numeral.basePrefix ++
      (numeral.digits ++ List.replicate numeral.spacesAfter 0x20)))

/-- The number of the digits. -/
def magnitude (numeral : IntegerNumeral radix) : Nat :=
  ofNumeral radix (numeral.digits.map digitValue)

/-- The number of the digits with the sign. -/
def value (numeral : IntegerNumeral radix) : Int :=
  if numeral.sign = [0x2D] then -numeral.magnitude else numeral.magnitude

end IntegerNumeral

/-- The range of a conversion: two bounds of 64 bits, which are not negative
for the unsigned types and are both zero for `UInt64`. -/
structure ConversionRange where
  isSigned : Bool
  minValue : Int
  maxValue : Int
  lower : -2 ^ 63 ≤ minValue
  upper : maxValue < 2 ^ 63
  unsigned : isSigned = false → 0 ≤ minValue

namespace ConversionRange

/-- The range is that of an unsigned 64-bit number, which is given by two
zeros. -/
def isUInt64 (range : ConversionRange) : Prop :=
  range.minValue = 0 ∧ range.maxValue = 0

instance (range : ConversionRange) : Decidable range.isUInt64 :=
  inferInstanceAs (Decidable (_ ∧ _))

/-- A number is in the range. -/
def Contains (range : ConversionRange) (value : Int) : Prop :=
  if range.isUInt64 then 0 ≤ value ∧ value < 2 ^ 64
  else range.minValue ≤ value ∧ value ≤ range.maxValue

end ConversionRange

/-- A string denotes a value inside a range. -/
def DenotesIn
    (range : ConversionRange)
    (radix : Nat)
    (str : List UInt8)
    (value : Int) : Prop :=
  ∃ numeral : IntegerNumeral radix, numeral.text = str ∧ numeral.value = value ∧
    range.Contains value

/-- A conversion returns exactly the value that the string denotes, in the 64
bits of the result, and raises an exception if there is none. -/
def Answers
    (range : ConversionRange)
    (radix : Nat)
    (str : List UInt8)
    (conversion : Conversion) : Prop :=
  (∀ result, conversion = .returned result ↔
    ∃ value, DenotesIn range radix str value ∧ result = toInt64 value) ∧
  ((¬∃ value, DenotesIn range radix str value) → conversion.Raises)

/-- Two conversions return the same value or both raise an exception. -/
def SameAnswer (left right : Conversion) : Prop :=
  (∀ result, left = .returned result ↔ right = .returned result) ∧
  (left.Raises ↔ right.Raises)

/-- Both builds are right and give the same answer. -/
def ParsesRight
    (range : ConversionRange)
    (radix : Nat)
    (str : List UInt8) : Prop :=
  let anyBase := NativeToInt64AnyBase str range.isSigned range.minValue
    range.maxValue radix
  Answers range radix str anyBase ∧
    Answers range radix str (NativeToInt64 str radix) ∧
    SameAnswer anyBase (NativeToInt64 str radix)

end Convert

end NanoClr
