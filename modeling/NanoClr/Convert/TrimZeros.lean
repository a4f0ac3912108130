import Mathlib.Algebra.Order.Field.Power
import Mathlib.Algebra.Order.Field.Rat
import Mathlib.Data.List.DropRight
import NanoClr.Convert.Sprintf

/-!
# Trimming zeros

The scan of a formatted number for the zeros that can be removed, and what is
left of its text.
-/

namespace NanoClr

namespace Convert

/-! ## The function -/

/-- What the loop leaves in `pointFound`, `firstZero` and `nextNonZero`. -/
structure ZeroScan where
  pointFound : Bool
  firstZero : Int
  nextNonZero : Nat
  deriving DecidableEq

/-- The loop over the characters from an index on. -/
def scanZeros (length : Nat) : List Char → Nat → Bool → Int → ZeroScan
  | [], _, pointFound, firstZero =>
      { pointFound, firstZero, nextNonZero := length }
  | character :: floatStr, i, pointFound, firstZero =>
      if pointFound = false then
        scanZeros length floatStr (i + 1) (character = '.') firstZero
      else if firstZero = -1 then
        scanZeros length floatStr (i + 1) true
          (if character = '0' then i else -1)
      else if character = 'e' ∨ character = 'E' then
        { pointFound := true, firstZero, nextNonZero := i }
      else if character ≠ '0' then
        scanZeros length floatStr (i + 1) true (-1)
      else
        scanZeros length floatStr (i + 1) true firstZero

/-- The text afterwards, without its terminator; there is none where the
regions of `memcpy` overlap. -/
def nf_RemovePrependedZeros (floatStr : List Char) : Option (List Char) :=
  let length := floatStr.length
  let scan := scanZeros length floatStr 0 false (-1)
  if scan.pointFound = true ∧ scan.firstZero ≠ -1 then
    let firstZero := scan.firstZero.toNat
    let startIndex :=
      if floatStr[firstZero - 1]? = some '.' then firstZero - 1 else firstZero
    if scan.nextNonZero = length then some (floatStr.take startIndex)
    else
      let lengthToCopy := length - scan.nextNonZero
      if scan.nextNonZero < startIndex + lengthToCopy then none
      else
        some (floatStr.take startIndex ++
          (floatStr.drop scan.nextNonZero).take lengthToCopy)
  else some floatStr

/-! ## Numbers -/

/-- The number that characters denote as digits. -/
def numberOf (digits : List Char) : Nat :=
  ofNumeral 10 (digits.map fun digit => digit.toNat - 48)

/-- The signs of a numeral. -/
def signs : List (List Char) := [[], ['-'], ['+']]

/-- Digits behind a point, unless there are none. -/
def pointed (fraction : List Char) : List Char :=
  if fraction = [] then [] else '.' :: fraction

/-- The text of a number: an optional sign, digits, a point with digits behind
it, and an optional exponent. -/
structure FloatNumeral where
  sign : List Char
  isSign : sign ∈ signs
  whole : List Char
  wholeNotEmpty : whole ≠ []
  wholeDigits : ∀ digit ∈ whole, digit.isDigit = true
  fraction : List Char
  fractionDigits : ∀ digit ∈ fraction, digit.isDigit = true
  marker : List Char
  isMarker : marker = [] ∨ marker = ['e'] ∨ marker = ['E']
  exponentSign : List Char
  isExponentSign : exponentSign ∈ signs
  exponent : List Char
  exponentDigits : ∀ digit ∈ exponent, digit.isDigit = true
  exponentIff : exponent = [] ↔ marker = []
  signIsMarked : marker = [] → exponentSign = []

namespace FloatNumeral

variable (numeral : FloatNumeral)

/-- The sign and the digits in front of the point. -/
def front : List Char := numeral.sign ++ numeral.whole

/-- The exponent with its marker. -/
def exponentPart : List Char :=
  numeral.marker ++ (numeral.exponentSign ++ numeral.exponent)

/-- The characters of a numeral. -/
def text : List Char :=
  numeral.front ++ (pointed numeral.fraction ++ numeral.exponentPart)

/-- The power of ten. -/
def power : Int :=
  if numeral.exponentSign = ['-'] then -numberOf numeral.exponent
  else numberOf numeral.exponent

/-- The number that a numeral stands for. -/
def value : Rat :=
  (if numeral.sign = ['-'] then -1 else 1) *
    numberOf (numeral.whole ++ numeral.fraction) *
      10 ^ (numeral.power - numeral.fraction.length)

/-- The fraction up to the zeros at its end. -/
def keptFraction : List Char := numeral.fraction.rdropWhile (· = '0')

/-- How many characters are to be removed. -/
def removedLength : Nat :=
  (pointed numeral.fraction).length - (pointed numeral.keptFraction).length

/-- The number without the zeros at the end of its fraction. -/
def trim : FloatNumeral :=
  { numeral with
    fraction := numeral.keptFraction
    fractionDigits := fun digit member =>
      numeral.fractionDigits digit
        ((List.rdropWhile_prefix _ _).subset member) }

/-- A text denotes the number, without a zero at the end of its fraction and
without a point at its end. -/
def TrimmedAs (text : List Char) : Prop :=
  ∃ trimmed : FloatNumeral, trimmed.text = text ∧
    trimmed.value = numeral.value ∧ trimmed.fraction.getLast? ≠ some '0'

/-- Trimming keeps the number, leaves nothing to trim and changes nothing when
it is applied again. -/
def TrimsRight : Prop :=
  ∃ result, nf_RemovePrependedZeros numeral.text = some result ∧
    numeral.TrimmedAs result ∧ nf_RemovePrependedZeros result = some result

/-- No zeros of the exponent are met before a zero of the fraction, and the
exponent is not longer than what is removed in front of it. -/
def ExponentIsSafe : Prop :=
  (numeral.keptFraction = [] ∨ numeral.exponent.getLast? ≠ some '0') ∧
    (numeral.keptFraction = numeral.fraction ∨
      numeral.exponentPart.length ≤ numeral.removedLength)

end FloatNumeral

/-! ## The scan -/

section Scan

attribute [local simp] scanZeros

variable
  {length i : Nat}
  {firstZero : Int}
  {str rest : List Char}

/-- The scan looks for the point. -/
theorem scanZeros_front
    (noPoint : '.' ∉ str) :
    scanZeros length (str ++ '.' :: rest) i false firstZero =
      scanZeros length rest (i + str.length + 1) true firstZero := by
  induction str generalizing i with
  | nil => rfl
  | cons character str inductionHypothesis =>
      rw [List.mem_cons, not_or] at noPoint
      rw [List.cons_append, scanZeros, if_pos rfl,
        decide_eq_false (Ne.symm noPoint.1), inductionHypothesis noPoint.2,
        List.length_cons, Nat.add_right_comm i 1, Nat.add_assoc i]

theorem scanZeros_noPoint
    (noPoint : '.' ∉ str) :
    scanZeros length str i false firstZero =
      { pointFound := false, firstZero, nextNonZero := length } := by
  induction str generalizing i with
  | nil => rfl
  | cons character str inductionHypothesis =>
      rw [List.mem_cons, not_or] at noPoint
      rw [scanZeros, if_pos rfl, decide_eq_false (Ne.symm noPoint.1),
        inductionHypothesis noPoint.2]

/-- A character that is no zero passes while there is no candidate. -/
theorem scanZeros_other
    {character : Char}
    (nonzero : character ≠ '0') :
    scanZeros length (character :: rest) i true (-1) =
      scanZeros length rest (i + 1) true (-1) := by
  simp [nonzero]

/-- Characters that do not end with a zero leave no candidate. -/
theorem scanZeros_reset
    (noMarker : ∀ character ∈ str, character ≠ 'e' ∧ character ≠ 'E')
    (noZero : str.getLast? ≠ some '0')
    (candidate : str = [] → firstZero = -1) :
    scanZeros length (str ++ rest) i true firstZero =
      scanZeros length rest (i + str.length) true (-1) := by
  induction str generalizing i firstZero with
  | nil => rw [candidate rfl]; rfl
  | cons character str inductionHypothesis =>
      obtain ⟨other, noMarker⟩ := List.forall_mem_cons.mp noMarker
      have step : ∃ later : Int, (str = [] → later = -1) ∧
          scanZeros length (character :: (str ++ rest)) i true firstZero =
            scanZeros length (str ++ rest) (i + 1) true later := by
        by_cases zero : character = '0'
        · have notLast : str ≠ [] := by
            rintro rfl
            exact noZero (congrArg some zero)
          by_cases none : firstZero = -1
          · exact ⟨i, fun last => absurd last notLast, by simp [zero, none]⟩
          · exact ⟨firstZero, fun last => absurd last notLast,
              by simp [zero, none]⟩
        · refine ⟨-1, fun _ => rfl, ?_⟩
          by_cases none : firstZero = -1
          · simp [zero, none]
          · simp [zero, none, other.1, other.2]
      obtain ⟨later, isCandidate, step⟩ := step
      have rest_noZero : str.getLast? ≠ some '0' := by
        cases str with
        | nil => simp
        | cons next str => rwa [List.getLast?_cons_cons] at noZero
      rw [List.cons_append, step,
        inductionHypothesis noMarker rest_noZero isCandidate,
        List.length_cons, Nat.add_right_comm i 1, Nat.add_assoc i]

/-- Zeros behind a candidate keep it. -/
theorem scanZeros_keep
    (isCandidate : firstZero ≠ -1)
    (count : Nat) :
    scanZeros length (List.replicate count '0' ++ rest) i true firstZero =
      scanZeros length rest (i + count) true firstZero := by
  induction count generalizing i with
  | zero => rfl
  | succ count inductionHypothesis =>
      rw [List.replicate_succ, List.cons_append, scanZeros,
        if_neg Bool.true_eq_false.mp, if_neg isCandidate,
        if_neg (by decide), if_neg (by decide), inductionHypothesis,
        Nat.add_assoc i, Nat.add_comm 1]

/-- The first of some zeros becomes the candidate. -/
theorem scanZeros_zeros
    (count : Nat) :
    scanZeros length (List.replicate (count + 1) '0' ++ rest) i true (-1) =
      scanZeros length rest (i + (count + 1)) true i := by
  rw [List.replicate_succ, List.cons_append, scanZeros,
    if_neg Bool.true_eq_false.mp, if_pos rfl, if_pos rfl,
    scanZeros_keep (by omega), Nat.add_assoc i, Nat.add_comm 1]

end Scan

/-! ## What the scan removes -/

section Removed

variable {str front middle tail : List Char} {last : Char}

/-- What is kept in front of a zero. -/
def keptFront (front : List Char) (last : Char) : List Char :=
  if last = '.' then front else front ++ [last]

theorem removePrependedZeros_noPoint
    (noPoint : '.' ∉ str) :
    nf_RemovePrependedZeros str = some str := by
  simp [nf_RemovePrependedZeros, scanZeros_noPoint noPoint]

theorem removePrependedZeros_none
    {nextNonZero : Nat}
    (scans : scanZeros str.length str 0 false (-1) =
      { pointFound := true, firstZero := -1, nextNonZero }) :
    nf_RemovePrependedZeros str = some str := by
  simp [nf_RemovePrependedZeros, scans]

/-- What is in front of the zeros is kept, and what is behind them is copied. -/
theorem removePrependedZeros_eq
    (scans : scanZeros str.length str 0 false (-1) =
      { pointFound := true
        firstZero := (front.length + 1 : Nat)
        nextNonZero := front.length + 1 + middle.length })
    (isText : str = front ++ last :: (middle ++ tail)) :
    nf_RemovePrependedZeros str =
      if (keptFront front last).length + tail.length ≤
          front.length + 1 + middle.length ∨ tail = [] then
        some (keptFront front last ++ tail)
      else none := by
  have length : str.length = front.length + 1 + middle.length + tail.length := by
    rw [isText]
    simp only [List.length_append, List.length_cons]
    omega
  have isLast : str[front.length]? = some last := by simp [isText]
  have isKept : str.take (keptFront front last).length =
      keptFront front last := by
    rw [isText, keptFront]
    split
    · exact List.take_left
    · rw [show front ++ last :: (middle ++ tail) =
        front ++ [last] ++ (middle ++ tail) by simp]
      exact List.take_left
  have isStart : (if last = '.' then front.length else front.length + 1) =
      (keptFront front last).length := by
    rw [keptFront]
    split <;> simp
  have isTail : str.drop (front.length + 1 + middle.length) = tail := by
    have split : str = (front ++ [last] ++ middle) ++ tail := by simp [isText]
    have whole : front.length + 1 + middle.length =
        (front ++ [last] ++ middle).length := by simp; omega
    rw [whole, split, List.drop_left]
  have count : str.length - (front.length + 1 + middle.length) = tail.length := by
    omega
  simp only [nf_RemovePrependedZeros, scans, Int.toNat_natCast,
    Nat.add_sub_cancel, isLast, Option.some_inj, isStart, isKept, isTail, count,
    List.take_length]
  rw [if_pos ⟨trivial, by omega⟩]
  by_cases none : tail = []
  · rw [if_pos (by rw [length, none]; rfl), if_pos (Or.inr none), none,
      List.append_nil]
  · have some : 0 < tail.length := List.length_pos_of_ne_nil none
    rw [if_neg (by omega)]
    by_cases fits : (keptFront front last).length + tail.length ≤
        front.length + 1 + middle.length
    · rw [if_neg (by omega), if_pos (Or.inl fits)]
    · rw [if_pos (by omega), if_neg (not_or_intro fits none)]

end Removed

/-! ## Digits -/

section Digits

variable {digits left right zeros : List Char} {digit : Char}

theorem digit_bounds (isDigit : digit.isDigit = true) :
    48 ≤ digit.toNat ∧ digit.toNat ≤ 57 := by
  simp only [Char.isDigit, Bool.and_eq_true, decide_eq_true_eq, ge_iff_le,
    UInt32.le_iff_toNat_le] at isDigit
  exact isDigit

/-- A digit other than zero counts. -/
theorem digit_pos
    (isDigit : digit.isDigit = true)
    (nonzero : digit ≠ '0') :
    0 < digit.toNat - 48 := by
  have bounds := digit_bounds isDigit
  have different : digit.toNat ≠ '0'.toNat := fun same =>
    nonzero (Char.toNat_inj.mp same)
  have zero : '0'.toNat = 48 := rfl
  omega

theorem not_mem_digits
    (isDigits : ∀ digit ∈ digits, digit.isDigit = true)
    {other : Char}
    (noDigit : other.isDigit = false) :
    other ∉ digits := by
  intro member
  rw [isDigits other member] at noDigit
  cases noDigit

theorem noMarker_of_digits
    (isDigits : ∀ digit ∈ digits, digit.isDigit = true) :
    ∀ character ∈ digits, character ≠ 'e' ∧ character ≠ 'E' := by
  intro character member
  have isDigit := isDigits character member
  constructor
  · rintro rfl
    cases isDigit
  · rintro rfl
    cases isDigit

/-- What is left in front of the zeros at the end, and the zeros. -/
theorem exists_zeros (digits : List Char) :
    ∃ count, digits =
        digits.rdropWhile (· = '0') ++ List.replicate count '0' ∧
      (digits.rdropWhile (· = '0')).getLast? ≠ some '0' := by
  refine ⟨(digits.rtakeWhile (· = '0')).length, ?_, ?_⟩
  · have zeros : List.replicate (digits.rtakeWhile (· = '0')).length '0' =
        digits.rtakeWhile (· = '0') := by
      symm
      apply List.eq_replicate_of_mem
      intro digit member
      simpa using List.mem_rtakeWhile_imp member
    rw [zeros, List.rdropWhile_append_rtakeWhile]
  · intro isLast
    have notNil : digits.rdropWhile (· = '0') ≠ [] := by
      intro none
      rw [none] at isLast
      cases isLast
    apply List.rdropWhile_last_not _ _ notNil
    rw [List.getLast?_eq_some_getLast notNil, Option.some_inj] at isLast
    rw [isLast]
    rfl

theorem numberOf_zeros (count : Nat) :
    numberOf (digits ++ List.replicate count '0') =
      numberOf digits * 10 ^ count := by
  have zero : numberOf (List.replicate count '0') = 0 := by
    rw [numberOf, List.map_replicate]
    simpa using @ofNumeral_zeros 10 [] count
  rw [numberOf, List.map_append, ofNumeral_append, List.length_map,
    List.length_replicate]
  exact congrArg _ zero

/-- Digits that do not end with a zero denote no zero. -/
theorem numberOf_pos
    (isDigits : ∀ digit ∈ digits, digit.isDigit = true)
    (notNil : digits ≠ [])
    (noZero : digits.getLast? ≠ some '0') :
    0 < numberOf digits := by
  obtain ⟨front, last, rfl⟩ := (List.eq_nil_or_concat' digits).resolve_left
    notNil
  rw [List.getLast?_concat, ne_eq, Option.some_inj] at noZero
  have some := digit_pos (isDigits last (by simp)) noZero
  rw [numberOf, List.map_append, List.map_singleton, ofNumeral_concat]
  omega

/-- A sign is told from the digits behind it. -/
theorem signed_inj
    {sign other : List Char}
    (isSign : sign ∈ signs)
    (isOther : other ∈ signs)
    (isLeft : ∀ digit ∈ left, digit.isDigit = true)
    (isRight : ∀ digit ∈ right, digit.isDigit = true)
    (same : sign ++ left = other ++ right) :
    sign = other ∧ left = right := by
  have noSign {digits rest : List Char} {sign : Char}
      (isDigits : ∀ digit ∈ digits, digit.isDigit = true)
      (isSign : sign = '-' ∨ sign = '+')
      (starts : digits = sign :: rest) : False := by
    have isDigit := isDigits sign (starts ▸ List.mem_cons_self)
    rcases isSign with rfl | rfl <;> cases isDigit
  simp only [signs, List.mem_cons, List.not_mem_nil, or_false]
    at isSign isOther
  rcases isSign with rfl | rfl | rfl <;> rcases isOther with rfl | rfl | rfl
  · exact ⟨rfl, same⟩
  · exact (noSign isLeft (.inl rfl) same).elim
  · exact (noSign isLeft (.inr rfl) same).elim
  · exact (noSign isRight (.inl rfl) same.symm).elim
  · exact ⟨rfl, (List.cons.inj same).2⟩
  · cases (List.cons.inj same).1
  · exact (noSign isRight (.inr rfl) same.symm).elim
  · cases (List.cons.inj same).1
  · exact ⟨rfl, (List.cons.inj same).2⟩

end Digits

end Convert

end NanoClr
