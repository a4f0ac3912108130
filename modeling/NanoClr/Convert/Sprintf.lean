import NanoClr.Library.Numerals

/-!
# Printing integers

What the standard's `sprintf` makes of a format that is one conversion
specification of an integer. Of its flags, those two are read that a format of
this development has.
-/

namespace NanoClr

namespace Convert

/-- The digits up to base 16. -/
def digitCharacters : List Char :=
  ['0', '1', '2', '3', '4', '5', '6', '7', '8', '9', 'A', 'B', 'C', 'D', 'E', 'F']

/-- The character of a digit. -/
def digitCharacter (digit : Nat) : Char := digitCharacters.getD digit '0'

/-- The digits of a number. -/
def digitsOf (base number : Nat) : List Char :=
  (numeral base number).map digitCharacter

/-- The minus sign of a negative number. -/
def signOf (number : Int) : List Char := if number < 0 then ['-'] else []

/-- What `%d` prints. -/
def decimal (number : Int) : List Char :=
  signOf number ++ digitsOf 10 number.natAbs

/-- A conversion specification. -/
structure Specification where
  leftJustified : Bool
  zeroPadded : Bool
  width : Nat
  isLong : Bool
  conversion : Char

/-- The character is one of the flags that are modelled. -/
def isFlag (character : Char) : Bool := character = '-' || character = '0'

/-- A conversion specification, read from a format that starts with it. -/
def Specification.read : List Char → Option Specification
  | '%' :: format =>
      let flags := format.takeWhile isFlag
      let format := format.dropWhile isFlag
      let width := format.takeWhile Char.isDigit
      let format := format.dropWhile Char.isDigit
      let specification (isLong : Bool) (conversion : Char) : Specification :=
        { leftJustified := '-' ∈ flags
          zeroPadded := '0' ∈ flags
          width := ofNumeral 10 (width.map fun digit => digit.toNat - 48)
          isLong
          conversion }
      match format with
      | [conversion] => some (specification false conversion)
      | ['l', 'l', conversion] => some (specification true conversion)
      | _ => none
  | _ => none

/-- A sign and digits in a field. -/
def Specification.pad
    (specification : Specification)
    (sign digits : List Char) : List Char :=
  let missing := specification.width - (sign ++ digits).length
  if specification.leftJustified then
    sign ++ digits ++ List.replicate missing ' '
  else if specification.zeroPadded then
    sign ++ List.replicate missing '0' ++ digits
  else List.replicate missing ' ' ++ sign ++ digits

/-- A number as an unsigned one of the size of the argument. -/
def Specification.unsigned (specification : Specification) (number : Int) : Nat :=
  (number % (if specification.isLong then 2 ^ 64 else 2 ^ 32)).toNat

/-- What a conversion specification makes of a number. -/
def Specification.print
    (specification : Specification)
    (number : Int) : Option (List Char) :=
  match specification.conversion with
  | 'd' => some
      (specification.pad (signOf number) (digitsOf 10 number.natAbs))
  | 'u' => some
      (specification.pad [] (digitsOf 10 (specification.unsigned number)))
  | 'X' => some
      (specification.pad [] (digitsOf 16 (specification.unsigned number)))
  | _ => none

/-- `sprintf` for a format that is one conversion specification. -/
def sprintf (format : List Char) (number : Int) : Option (List Char) :=
  (Specification.read format).bind fun specification =>
    specification.print number

/-! ## Reading a specification -/

theorem isDigit_digitCharacter
    {digit : Nat}
    (small : digit < 10) :
    (digitCharacter digit).isDigit = true ∧
      (digitCharacter digit).toNat - 48 = digit ∧
      (isFlag (digitCharacter digit) = true ↔ digit = 0) := by
  revert digit
  decide

theorem numbers_of_digits
    {digits : List Nat}
    (small : ∀ digit ∈ digits, digit < 10) :
    (∀ character ∈ digits.map digitCharacter, character.isDigit = true) ∧
      (digits.map digitCharacter).map (fun digit => digit.toNat - 48) =
        digits := by
  constructor
  · intro character member
    obtain ⟨digit, isDigit, rfl⟩ := List.mem_map.mp member
    exact (isDigit_digitCharacter (small digit isDigit)).1
  · rw [List.map_map]
    have same : ∀ digit ∈ digits,
        ((fun digit : Char => digit.toNat - 48) ∘ digitCharacter) digit =
          id digit :=
      fun digit member => (isDigit_digitCharacter (small digit member)).2.1
    rw [List.map_congr_left same, List.map_id]

/-- The characters behind the width: the length and the conversion. -/
def lengthAndConversion (isLong : Bool) (conversion : Char) : List Char :=
  (if isLong then ['l', 'l'] else []) ++ [conversion]

/-- A specification is read from its parts. -/
theorem read_parts
    {flags : List Char}
    {width : List Nat}
    (areFlags : ∀ flag ∈ flags, isFlag flag = true)
    (small : ∀ digit ∈ width, digit < 10)
    (noZero : width.head? ≠ some 0)
    (isLong : Bool)
    {conversion : Char}
    (isConversion : conversion ∈ ['d', 'u', 'X']) :
    Specification.read ('%' :: (flags ++ width.map digitCharacter ++
      lengthAndConversion isLong conversion)) =
        some
          { leftJustified := '-' ∈ flags
            zeroPadded := '0' ∈ flags
            width := ofNumeral 10 width
            isLong
            conversion } := by
  obtain ⟨areDigits, numbers⟩ := numbers_of_digits small
  have ends : conversion = 'd' ∨ conversion = 'u' ∨ conversion = 'X' := by
    simpa using isConversion
  have endNoFlag : (lengthAndConversion isLong conversion).takeWhile isFlag = [] ∧
      (lengthAndConversion isLong conversion).dropWhile isFlag =
        lengthAndConversion isLong conversion := by
    rcases ends with rfl | rfl | rfl <;> cases isLong <;> decide
  have endNoDigit :
      (lengthAndConversion isLong conversion).takeWhile Char.isDigit = [] ∧
        (lengthAndConversion isLong conversion).dropWhile Char.isDigit =
          lengthAndConversion isLong conversion := by
    rcases ends with rfl | rfl | rfl <;> cases isLong <;> decide
  have widthNoFlag : (width.map digitCharacter ++
      lengthAndConversion isLong conversion).takeWhile isFlag = [] ∧
        (width.map digitCharacter ++
          lengthAndConversion isLong conversion).dropWhile isFlag =
            width.map digitCharacter ++
              lengthAndConversion isLong conversion := by
    cases width with
    | nil => exact endNoFlag
    | cons first rest =>
        have noFlag : ¬isFlag (digitCharacter first) = true := by
          rw [(isDigit_digitCharacter (small first List.mem_cons_self)).2.2]
          intro zero
          rw [zero] at noZero
          exact noZero rfl
        rw [List.map_cons, List.cons_append, List.takeWhile_cons_of_neg noFlag,
          List.dropWhile_cons_of_neg noFlag]
        exact ⟨rfl, rfl⟩
  rw [Specification.read, List.append_assoc]
  simp only [List.takeWhile_append_of_pos areFlags,
    List.dropWhile_append_of_pos areFlags, widthNoFlag.1, widthNoFlag.2,
    List.takeWhile_append_of_pos areDigits,
    List.dropWhile_append_of_pos areDigits, endNoDigit.1, endNoDigit.2,
    List.append_nil, numbers]
  cases isLong with
  | false => rfl
  | true => rfl

/-- The sign and the digits of a number are read as a flag and as the width. -/
theorem read_decimal
    {flags : List Char}
    (areFlags : ∀ flag ∈ flags, isFlag flag = true)
    (hasZero : '0' ∈ flags)
    (precision : Int)
    (isLong : Bool)
    {conversion : Char}
    (isConversion : conversion ∈ ['d', 'u', 'X']) :
    Specification.read ('%' :: (flags ++ decimal precision ++
      lengthAndConversion isLong conversion)) =
        some
          { leftJustified := '-' ∈ flags ∨ precision < 0
            zeroPadded := true
            width := precision.natAbs
            isLong
            conversion } := by
  have signs : ∀ flag ∈ flags ++ signOf precision, isFlag flag = true := by
    intro flag member
    rcases List.mem_append.mp member with given | sign
    · exact areFlags flag given
    · rw [signOf] at sign
      split at sign
      · rw [List.mem_singleton.mp sign]
        rfl
      · cases sign
  have minus : '-' ∈ flags ++ signOf precision ↔
      '-' ∈ flags ∨ precision < 0 := by
    rw [List.mem_append, signOf]
    split <;> simp_all
  by_cases zero : precision = 0
  · have digits : flags ++ decimal precision =
        flags ++ signOf precision ++ ['0'] ++ [].map digitCharacter := by
      rw [decimal, zero]
      simp [digitsOf, numeral, digitCharacter, digitCharacters]
    have allFlags : ∀ flag ∈ flags ++ signOf precision ++ ['0'],
        isFlag flag = true := by
      intro flag member
      rcases List.mem_append.mp member with given | isZero
      · exact signs flag given
      · rw [List.mem_singleton.mp isZero]
        rfl
    rw [digits, read_parts allFlags (List.forall_mem_nil _)
      (Option.some_ne_none 0).symm isLong isConversion]
    simp [zero, signOf]
  · have nonzero : precision.natAbs ≠ 0 := by omega
    have noZero : (numeral 10 precision.natAbs).head? ≠ some 0 := by
      obtain ⟨digit, rest, isNumeral, notZero⟩ :
          ∃ digit rest, numeral 10 precision.natAbs = digit :: rest ∧ digit ≠ 0 :=
        numeral_eq_cons nonzero
      rw [isNumeral, List.head?_cons, ne_eq, Option.some_inj]
      exact notZero
    rw [decimal, ← List.append_assoc flags, digitsOf, read_parts signs
      (numeral_lt (by decide)) noZero isLong isConversion]
    simp [minus, hasZero]

end Convert

end NanoClr
