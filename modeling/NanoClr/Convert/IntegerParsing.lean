import NanoClr.Convert.NativeToInt64

/-!
# Integer parsing

What the two builds make of a numeral, and when both return its value.
-/

namespace NanoClr

namespace Convert

/-! ## Characters -/

theorem forall_character
    {P : UInt8 → Prop}
    (all : ∀ code < 256, P (UInt8.ofNat code))
    (character : UInt8) :
    P character := by
  have here := all character.toNat character.toNat_lt
  rwa [UInt8.ofNat_toNat] at here

theorem decimal_character (character : UInt8) :
    isDigit 10 character = true → isDigit 16 character = true ∧
      (character.toNat : Int) - 0x30 = digitValue character := by
  revert character
  apply forall_character
  decide +kernel

/-- A digit of base 16 is no space, no sign and no letter of a prefix. -/
theorem digit_character (character : UInt8) :
    isDigit 16 character = true → isspace character = false ∧
      isSpace character = false ∧ character ≠ 0x2D ∧ character ≠ 0x2B ∧
      character ≠ 0x78 ∧ character ≠ 0x58 := by
  revert character
  apply forall_character
  decide +kernel

/-- What the loop for base 16 does with a digit. -/
theorem hexadecimal_character (character : UInt8) :
    isDigit 16 character = true →
      let c := toupper character
      ¬(c < 0x30 ∨ c > 0x46 ∨ c > 0x39 ∧ c < 0x41) ∧
        (if c - 0x30 > 9 then c - 0x30 - 7 else c - 0x30).toNat =
          digitValue character := by
  revert character
  apply forall_character
  decide +kernel

theorem isDigit_lt
    {base : Nat}
    {character : UInt8} :
    isDigit base character = true ↔ digitValue character < base :=
  decide_eq_true_iff

theorem isDigit_sixteen
    {radix : Nat}
    (atMost : radix ≤ 16)
    {character : UInt8}
    (digit : isDigit radix character = true) :
    isDigit 16 character = true :=
  isDigit_lt.mpr (Nat.lt_of_lt_of_le (isDigit_lt.mp digit) atMost)

/-! ## Numerals -/

namespace IntegerNumeral

variable {radix : Nat}

/-- The text without the spaces in front. -/
def body (numeral : IntegerNumeral radix) : List UInt8 :=
  numeral.sign ++ (numeral.basePrefix ++
    (numeral.digits ++ List.replicate numeral.spacesAfter 0x20))

theorem text_eq (numeral : IntegerNumeral radix) :
    numeral.text = List.replicate numeral.spacesBefore 0x20 ++ numeral.body :=
  rfl

/-- The digits and what stands behind them. -/
def afterPrefix (numeral : IntegerNumeral radix) : List UInt8 :=
  numeral.digits ++ List.replicate numeral.spacesAfter 0x20

/-- The first character behind the sign is a digit. -/
theorem unsigned_eq_cons
    (atMost : radix ≤ 16)
    (numeral : IntegerNumeral radix) :
    ∃ character rest, numeral.basePrefix ++ numeral.afterPrefix =
        character :: rest ∧
      isDigit 16 character = true := by
  rcases numeral.isPrefix with without | ⟨-, withPrefix⟩
  · cases isDigits : numeral.digits with
    | nil => exact absurd isDigits numeral.notEmpty
    | cons digit digits =>
        rw [without, afterPrefix, isDigits]
        have isDigit := numeral.areDigits digit
          (isDigits ▸ List.mem_cons_self)
        exact ⟨digit, _, rfl, isDigit_sixteen atMost isDigit⟩
  · rw [List.mem_cons, List.mem_singleton] at withPrefix
    rcases withPrefix with isPrefix | isPrefix <;>
    · rw [isPrefix]
      exact ⟨0x30, _, rfl, by decide⟩

/-- The first character of the body is no space. -/
theorem body_eq_cons
    (atMost : radix ≤ 16)
    (numeral : IntegerNumeral radix) :
    ∃ character rest, numeral.body = character :: rest ∧
      isspace character = false ∧ isSpace character = false := by
  obtain ⟨character, rest, isUnsigned, digit⟩ :=
    numeral.unsigned_eq_cons atMost
  have isSign := numeral.isSign
  simp only [List.mem_cons, List.not_mem_nil, or_false] at isSign
  rw [body, ← afterPrefix, isUnsigned]
  rcases isSign with none | minus | plus
  · obtain ⟨noSpace, noBlank, -⟩ := digit_character character digit
    rw [none]
    exact ⟨character, rest, rfl, noSpace, noBlank⟩
  · rw [minus]
    exact ⟨0x2D, _, rfl, by decide, by decide⟩
  · rw [plus]
    exact ⟨0x2B, _, rfl, by decide, by decide⟩

/-- Skipping spaces leads to the body. -/
theorem dropWhile_text
    (atMost : radix ≤ 16)
    (numeral : IntegerNumeral radix)
    {space : UInt8 → Bool}
    (isBlank : space = isspace ∨ space = isSpace) :
    numeral.text.dropWhile space = numeral.body ∧
      numeral.body.dropWhile space = numeral.body := by
  obtain ⟨character, rest, isBody, noSpace, noBlank⟩ :=
    numeral.body_eq_cons atMost
  have blank : space 0x20 = true := by
    rcases isBlank with rfl | rfl <;> rfl
  have other : ¬space character = true := by
    rcases isBlank with rfl | rfl
    · rw [noSpace]
      exact Bool.false_ne_true
    · rw [noBlank]
      exact Bool.false_ne_true
  have here : numeral.body.dropWhile space = numeral.body := by
    rw [isBody, List.dropWhile_cons_of_neg other]
  refine ⟨?_, here⟩
  rw [text_eq, List.dropWhile_append_of_pos, here]
  intro character member
  rw [List.eq_of_mem_replicate member]
  exact blank

/-- The sign is read and skipped. -/
theorem skipSign_body
    (atMost : radix ≤ 16)
    (numeral : IntegerNumeral radix) :
    (numeral.body.head? = some 0x2D ↔ numeral.sign = [0x2D]) ∧
      (numeral.body.head? = some 0x2B ↔ numeral.sign = [0x2B]) ∧
      skipSign numeral.body = numeral.basePrefix ++ numeral.afterPrefix := by
  obtain ⟨character, rest, isUnsigned, digit⟩ :=
    numeral.unsigned_eq_cons atMost
  have isSign := numeral.isSign
  simp only [List.mem_cons, List.not_mem_nil, or_false] at isSign
  rw [body, ← afterPrefix, isUnsigned]
  rcases isSign with none | minus | plus
  · obtain ⟨-, -, noMinus, noPlus, -⟩ := digit_character character digit
    simp [none, skipSign, noMinus, noPlus]
  · simp [minus, skipSign]
  · simp [plus, skipSign]

/-- The digits and the spaces have no letter of a prefix. -/
theorem afterPrefix_ne
    (atMost : radix ≤ 16)
    (numeral : IntegerNumeral radix) :
    ∀ character ∈ numeral.afterPrefix, character ≠ 0x78 ∧ character ≠ 0x58 := by
  intro character member
  rcases List.mem_append.mp member with digit | space
  · obtain ⟨-, -, -, -, noX⟩ := digit_character character
      (isDigit_sixteen atMost (numeral.areDigits character digit))
    exact noX
  · rw [List.eq_of_mem_replicate space]
    decide

theorem skipPrefix_eq
    (atMost : radix ≤ 16)
    (numeral : IntegerNumeral radix) :
    skipPrefix radix (numeral.basePrefix ++ numeral.afterPrefix) =
      numeral.afterPrefix := by
  rcases numeral.isPrefix with without | ⟨isRadix, withPrefix⟩
  · have noX := numeral.afterPrefix_ne atMost
    rw [without, List.nil_append]
    match isAfter : numeral.afterPrefix with
    | [] => rfl
    | [_] => rfl
    | [_, _] => rfl
    | zero :: x :: digit :: rest =>
        rw [isAfter] at noX
        have noPrefix := noX x (List.mem_cons_of_mem _ List.mem_cons_self)
        rw [skipPrefix, if_neg]
        rintro ⟨-, -, isX, -⟩
        exact isX.elim noPrefix.1 noPrefix.2
  · cases isDigits : numeral.digits with
    | nil => exact absurd isDigits numeral.notEmpty
    | cons digit digits =>
        have areDigits := numeral.areDigits digit (isDigits ▸ List.mem_cons_self)
        have digit16 := isDigit_sixteen atMost areDigits
        rw [List.mem_cons, List.mem_singleton] at withPrefix
        rw [afterPrefix, isDigits]
        rcases withPrefix with isPrefix | isPrefix <;>
        · rw [isPrefix]
          simp [skipPrefix, isRadix, digit16]

/-- The digits of the text are the longest sequence of digits. -/
theorem takeWhile_afterPrefix
    (atMost : radix ≤ 16)
    (numeral : IntegerNumeral radix) :
    numeral.afterPrefix.takeWhile (isDigit radix) = numeral.digits ∧
      numeral.afterPrefix.dropWhile (isDigit radix) =
        List.replicate numeral.spacesAfter 0x20 := by
  have noDigit : ¬isDigit radix 0x20 = true := by
    rw [isDigit_lt]
    have here : digitValue 0x20 = 36 := by decide
    omega
  rw [afterPrefix, List.takeWhile_append_of_pos numeral.areDigits,
    List.dropWhile_append_of_pos numeral.areDigits]
  cases numeral.spacesAfter with
  | zero => exact ⟨List.append_nil _, rfl⟩
  | succ count =>
      rw [List.replicate_succ, List.takeWhile_cons_of_neg noDigit,
        List.dropWhile_cons_of_neg noDigit]
      exact ⟨List.append_nil _, rfl⟩

/-- What the standard's conversions find in a numeral. -/
def subject (numeral : IntegerNumeral radix) : Subject :=
  { negative := numeral.sign = [0x2D]
    magnitude := numeral.magnitude
    endptr := List.replicate numeral.spacesAfter 0x20 }

theorem subject?_body
    (atMost : radix ≤ 16)
    (numeral : IntegerNumeral radix) :
    subject? radix numeral.body = some numeral.subject := by
  obtain ⟨minus, -, skipped⟩ := numeral.skipSign_body atMost
  obtain ⟨isDigits, isRest⟩ := numeral.takeWhile_afterPrefix atMost
  have isBody := (numeral.dropWhile_text atMost (.inl rfl)).2
  simp only [subject?, isBody, skipped, numeral.skipPrefix_eq atMost, isDigits,
    isRest, if_neg numeral.notEmpty, minus]
  rfl

theorem subject?_text
    (atMost : radix ≤ 16)
    (numeral : IntegerNumeral radix) :
    subject? radix numeral.text = some numeral.subject := by
  rw [← numeral.subject?_body atMost, subject?, subject?,
    (numeral.dropWhile_text atMost (.inl rfl)).1,
    (numeral.dropWhile_text atMost (.inl rfl)).2]

/-- A string denotes one value. -/
theorem value_eq_of_text_eq
    (atMost : radix ≤ 16)
    {left right : IntegerNumeral radix}
    (same : left.text = right.text) :
    left.value = right.value := by
  have subjects := left.subject?_text atMost
  rw [same, right.subject?_text atMost, Option.some_inj] at subjects
  have negative := congrArg Subject.negative subjects
  have magnitude : right.magnitude = left.magnitude :=
    congrArg Subject.magnitude subjects
  simp only [subject, decide_eq_decide] at negative
  simp only [value, magnitude, negative]

end IntegerNumeral

/-! ## The build for any base -/

theorem toInt64_of_fits
    {number : Int}
    (lower : -2 ^ 63 ≤ number)
    (upper : number < 2 ^ 63) :
    toInt64 number = number := by
  rw [toInt64]
  omega

theorem dropWhile_spaces (count : Nat) :
    (List.replicate count 0x20).dropWhile isSpace = [] := by
  induction count with
  | zero => rfl
  | succ count inductionHypothesis => exact inductionHypothesis

namespace IntegerNumeral

variable
  {radix : Nat}
  {range : ConversionRange}

theorem value_of_minus
    {numeral : IntegerNumeral radix}
    (minus : numeral.sign = [0x2D]) :
    numeral.value = -numeral.magnitude :=
  if_pos minus

theorem value_of_not_minus
    {numeral : IntegerNumeral radix}
    (noMinus : numeral.sign ≠ [0x2D]) :
    numeral.value = numeral.magnitude :=
  if_neg noMinus

/-- `strtoll` converts a value that fits. -/
theorem strtoll_subject
    {numeral : IntegerNumeral radix}
    (lower : -2 ^ 63 ≤ numeral.value)
    (upper : numeral.value < 2 ^ 63) :
    strtoll numeral.subject = numeral.value := by
  have isValue : (if numeral.subject.negative then
      -(numeral.subject.magnitude : Int) else numeral.subject.magnitude) =
        numeral.value := by
    simp only [subject, value, decide_eq_true_eq]
  rw [strtoll]
  simp only [isValue]
  rw [if_neg (not_lt.mpr lower), if_neg (not_le.mpr upper)]

/-- `strtoull` converts a value that is not negative and fits. -/
theorem strtoull_subject
    {numeral : IntegerNumeral radix}
    (lower : 0 ≤ numeral.value)
    (upper : numeral.value < 2 ^ 64) :
    strtoull numeral.subject = numeral.value := by
  have isMagnitude : numeral.subject.magnitude = numeral.magnitude := rfl
  have isNegative : numeral.subject.negative = decide (numeral.sign = [0x2D]) := rfl
  rw [strtoull, isMagnitude, isNegative]
  by_cases minus : numeral.sign = [0x2D]
  · have isValue := value_of_minus minus
    rw [if_neg (by omega), if_pos (decide_eq_true minus), isValue, toUInt64]
    omega
  · have isValue := value_of_not_minus minus
    rw [if_neg (by omega), if_neg (by simpa using minus), isValue]

/-- The build for any base returns the value, except for a minus sign in front
of zero for `UInt64`. -/
theorem anyBase_text
    (atMost : radix ≤ 16)
    (numeral : IntegerNumeral radix)
    (contained : range.Contains numeral.value) :
    NativeToInt64AnyBase numeral.text range.isSigned range.minValue
        range.maxValue radix =
      if range.isUInt64 ∧ numeral.sign = [0x2D] then .outOfRange
      else .returned (toInt64 numeral.value) := by
  have lower := range.lower
  have upper := range.upper
  have blank : numeral.subject.endptr.dropWhile isSpace = [] :=
    dropWhile_spaces _
  rw [ConversionRange.Contains] at contained
  rw [NativeToInt64AnyBase]
  by_cases isUInt64 : range.isUInt64
  · have flag : decide (range.minValue = 0 ∧ range.maxValue = 0) = true :=
      decide_eq_true isUInt64
    rw [if_pos isUInt64] at contained
    simp only [flag, if_true, (numeral.dropWhile_text atMost (.inr rfl)).1,
      (numeral.skipSign_body atMost).1, true_and, isUInt64]
    by_cases minus : numeral.sign = [0x2D]
    · rw [if_pos minus, if_pos minus]
    · rw [if_neg minus, if_neg minus, numeral.subject?_body atMost]
      simp only [Bool.not_true, Bool.and_false, blank, ne_eq, not_true_eq_false,
        if_false, postProcess, Bool.false_eq_true, false_and, and_false,
        Bool.true_eq_false, strtoull_subject contained.1 contained.2]
  · have flag : decide (range.minValue = 0 ∧ range.maxValue = 0) = false :=
      decide_eq_false isUInt64
    have noOverflow : ∀ isSigned : Bool, ∀ result ≤ range.maxValue,
        postProcess isSigned range.maxValue radix result = some result := by
      intro isSigned result small
      rw [postProcess, if_neg]
      exact fun all => not_le.mpr all.2.2 small
    rw [if_neg isUInt64] at contained
    simp only [flag, if_false, numeral.subject?_text atMost, Bool.not_false,
      Bool.and_true, blank, ne_eq, not_true_eq_false, Bool.false_eq_true,
      false_and, isUInt64, true_and]
    cases isSigned : range.isSigned with
    | true =>
        rw [if_pos rfl, strtoll_subject (by omega) (by omega),
          noOverflow true _ contained.2]
        simp only [Bool.true_eq_false, false_and, if_false]
        rw [if_neg (by omega), toInt64_of_fits (by omega) (by omega)]
    | false =>
        have positive := range.unsigned isSigned
        rw [if_neg Bool.false_ne_true,
          strtoull_subject (by omega) (by omega),
          toInt64_of_fits (by omega) (by omega), noOverflow false _ contained.2]
        simp only [true_and, toUInt64]
        rw [if_neg (by omega), if_neg (by omega)]

end IntegerNumeral

/-! ## The loop for base 16 -/

theorem toInt64_shift
    (number : Int)
    {digit : Nat}
    (small : digit < 16) :
    toInt64 (toInt64 number * 2 ^ 4) + digit = toInt64 (number * 16 + digit) := by
  simp only [toInt64]
  omega

theorem hexadecimalPart_invalid
    {character : UInt8}
    (invalid : toupper character < 0x30 ∨ toupper character > 0x46 ∨
      toupper character > 0x39 ∧ toupper character < 0x41)
    (str : List UInt8)
    (returnValue : Int) :
    hexadecimalPart (character :: str) returnValue = returnValue := by
  simp only [hexadecimalPart, if_pos invalid]

/-- The loop converts digits up to a space. -/
theorem hexadecimalPart_digits
    {digits : List UInt8}
    (areDigits : ∀ digit ∈ digits, isDigit 16 digit = true)
    (number : Int)
    (spaces : Nat) :
    hexadecimalPart (digits ++ List.replicate spaces 0x20) (toInt64 number) =
      toInt64 (number * 16 ^ digits.length +
        ofNumeral 16 (digits.map digitValue)) := by
  induction digits generalizing number with
  | nil =>
      have ended : hexadecimalPart (List.replicate spaces 0x20)
          (toInt64 number) = toInt64 number := by
        cases spaces with
        | zero => rfl
        | succ spaces => exact hexadecimalPart_invalid (by decide) _ _
      rw [List.nil_append, ended, List.length_nil, List.map_nil, ofNumeral_nil,
        pow_zero, mul_one, Nat.cast_zero, add_zero]
  | cons digit digits inductionHypothesis =>
      have isDigit := areDigits digit List.mem_cons_self
      obtain ⟨valid, isValue⟩ := hexadecimal_character digit isDigit
      have rest := fun digit member =>
        areDigits digit (List.mem_cons_of_mem _ member)
      rw [List.cons_append, hexadecimalPart]
      simp only [if_neg valid]
      rw [isValue, toInt64_shift number (isDigit_lt.mp isDigit),
        inductionHypothesis rest, List.length_cons, List.map_cons,
        ofNumeral_cons, List.length_map]
      congr 1
      push_cast
      ring

namespace IntegerNumeral

theorem hexString_text (numeral : IntegerNumeral 16) :
    GetIntegerFromHexString numeral.text =
      if numeral.spacesBefore = 0 ∧ numeral.sign = [] ∧
          numeral.basePrefix ≠ [0x30, 0x58] then
        toInt64 numeral.magnitude
      else 0 := by
  have digits : hexadecimalPart numeral.afterPrefix 0 =
      toInt64 numeral.magnitude := by
    have converted := hexadecimalPart_digits numeral.areDigits 0
      numeral.spacesAfter
    rwa [zero_mul, zero_add] at converted
  have isSign := numeral.isSign
  simp only [List.mem_cons, List.not_mem_nil, or_false] at isSign
  have noX := numeral.afterPrefix_ne (Nat.le_refl 16)
  rw [text_eq, body, ← afterPrefix]
  cases numeral.spacesBefore with
  | succ count =>
      rw [List.replicate_succ, if_neg (fun all => Nat.succ_ne_zero _ all.1),
        GetIntegerFromHexString, List.cons_append, List.head?_cons,
        if_neg (fun both => absurd both.1 (by decide))]
      exact hexadecimalPart_invalid (by decide) _ _
  | zero =>
      rw [List.replicate_zero, List.nil_append]
      rcases isSign with none | minus | plus
      · rw [none, List.nil_append]
        rcases numeral.isPrefix with without | ⟨-, withPrefix⟩
        · rw [without, List.nil_append, if_pos ⟨rfl, rfl, by decide⟩,
            GetIntegerFromHexString, if_neg, digits]
          rintro ⟨-, second⟩
          exact (noX _ (List.mem_of_mem_tail (List.mem_of_head? second))).1 rfl
        · rw [List.mem_cons, List.mem_singleton] at withPrefix
          rcases withPrefix with lower | upper
          · rw [lower, if_pos ⟨rfl, rfl, by decide⟩]
            exact digits
          · rw [upper, if_neg (fun all => all.2.2 rfl)]
            rfl
      · rw [minus, if_neg (fun all => List.cons_ne_nil _ _ all.2.1)]
        show hexadecimalPart
          (0x2D :: (numeral.basePrefix ++ numeral.afterPrefix)) 0 = 0
        exact hexadecimalPart_invalid (by decide) _ _
      · rw [plus, if_neg (fun all => List.cons_ne_nil _ _ all.2.1)]
        show hexadecimalPart
          (0x2B :: (numeral.basePrefix ++ numeral.afterPrefix)) 0 = 0
        exact hexadecimalPart_invalid (by decide) _ _

/-- When the build with its own loops returns the value of a numeral of base
16. -/
theorem hexadecimal_iff
    (numeral : IntegerNumeral 16)
    (lower : -2 ^ 63 ≤ numeral.value)
    (upper : numeral.value < 2 ^ 64) :
    NativeToInt64 numeral.text 16 = .returned (toInt64 numeral.value) ↔
      numeral.magnitude = 0 ∨
        numeral.spacesBefore = 0 ∧ numeral.sign = [] ∧
          numeral.basePrefix ≠ [0x30, 0x58] := by
  rw [NativeToInt64, if_neg (by decide), if_pos rfl, Conversion.returned.injEq,
    hexString_text]
  split
  next plain =>
    apply iff_of_true _ (.inr plain)
    rw [value_of_not_minus]
    rw [plain.2.1]
    exact List.cons_ne_nil _ _ |>.symm
  next other =>
    rw [or_iff_left other]
    have zero : toInt64 numeral.value = 0 ↔ numeral.value = 0 := by
      rw [toInt64]
      omega
    rw [eq_comm, zero, value]
    split <;> omega

end IntegerNumeral

/-! ## The loop for base 10 -/

/-- The number that the loop computes where nothing overflows. -/
def decimalValue (returnValue : Int) (str : List UInt8) : Int :=
  str.foldl (fun returnValue character =>
    returnValue * 10 + (character.toNat - 0x30)) returnValue

theorem int64?_eq_some
    {number result : Int} :
    int64? number = some result ↔
      result = number ∧ -2 ^ 63 ≤ number ∧ number < 2 ^ 63 := by
  rw [int64?]
  split
  next fits => rw [Option.some_inj, eq_comm, and_iff_left fits]
  next other => exact iff_of_false nofun fun all => other all.2

theorem decimalValue_append
    {returnValue : Int}
    {left right : List UInt8} :
    decimalValue returnValue (left ++ right) =
      decimalValue (decimalValue returnValue left) right :=
  List.foldl_append

theorem decimalValue_digits
    {digits : List UInt8}
    (areDigits : ∀ digit ∈ digits, isDigit 10 digit = true)
    (returnValue : Int) :
    decimalValue returnValue digits = returnValue * 10 ^ digits.length +
      ofNumeral 10 (digits.map digitValue) := by
  induction digits generalizing returnValue with
  | nil => simp [decimalValue]
  | cons digit digits inductionHypothesis =>
      have rest := fun digit member =>
        areDigits digit (List.mem_cons_of_mem _ member)
      have step : decimalValue returnValue (digit :: digits) =
          decimalValue (returnValue * 10 + digitValue digit) digits := by
        rw [← (decimal_character digit (areDigits digit
          List.mem_cons_self)).2]
        rfl
      rw [step, inductionHypothesis rest, List.length_cons, List.map_cons,
        ofNumeral_cons, List.length_map]
      push_cast
      ring

/-- What spaces make of a number. -/
theorem decimalValue_spaces
    (returnValue : Int)
    (count : Nat) :
    9 * decimalValue returnValue (List.replicate count 0x20) - 16 =
      10 ^ count * (9 * returnValue - 16) := by
  induction count generalizing returnValue with
  | zero => simp [decimalValue]
  | succ count inductionHypothesis =>
      have step : decimalValue returnValue (List.replicate (count + 1) 0x20) =
          decimalValue (returnValue * 10 + (0x20 - 0x30))
            (List.replicate count 0x20) := rfl
      rw [step, inductionHypothesis]
      ring

/-- No character adds more than a digit. -/
theorem decimalValue_lt
    {str : List UInt8}
    (small : ∀ character ∈ str, character.toNat ≤ 0x39)
    (returnValue : Int) :
    decimalValue returnValue str < (returnValue + 1) * 10 ^ str.length := by
  induction str generalizing returnValue with
  | nil => simp [decimalValue]
  | cons character str inductionHypothesis =>
      have here := small character List.mem_cons_self
      have rest := fun character member =>
        small character (List.mem_cons_of_mem _ member)
      have positive : (0 : Int) < 10 ^ str.length := by positivity
      calc
        decimalValue returnValue (character :: str) =
            decimalValue (returnValue * 10 + (character.toNat - 0x30)) str := rfl
        _ < (returnValue * 10 + (character.toNat - 0x30) + 1) *
            10 ^ str.length := inductionHypothesis rest _
        _ ≤ ((returnValue + 1) * 10) * 10 ^ str.length := by
            apply mul_le_mul_of_nonneg_right _ positive.le
            omega
        _ = (returnValue + 1) * 10 ^ (str.length + 1) := by ring

/-- A result of the loop is the number of the characters that it reads, and
every number on the way fits. -/
theorem getIntegerPart_some
    {str : List UInt8}
    {length : Nat}
    {returnValue result : Int}
    (done : GetIntegerPart str length returnValue = some result) :
    result = decimalValue returnValue (str.take length) ∧
      ∀ count, 0 < count → count ≤ length → count ≤ str.length →
        -2 ^ 63 ≤ decimalValue returnValue (str.take count) ∧
          decimalValue returnValue (str.take count) < 2 ^ 63 := by
  induction str generalizing length returnValue with
  | nil =>
      cases length with
      | zero =>
          rw [GetIntegerPart, Option.some_inj] at done
          refine ⟨done.symm, ?_⟩
          intro count positive atMost
          omega
      | succ length => cases done
  | cons character str inductionHypothesis =>
      cases length with
      | zero =>
          rw [GetIntegerPart, Option.some_inj] at done
          refine ⟨done.symm, ?_⟩
          intro count positive atMost
          omega
      | succ length =>
          rw [GetIntegerPart, Option.bind_eq_some_iff] at done
          obtain ⟨tens, isTens, done⟩ := done
          rw [Option.bind_eq_some_iff] at done
          obtain ⟨next, isNext, done⟩ := done
          rw [int64?_eq_some] at isTens isNext
          obtain ⟨rfl, -⟩ := isTens
          obtain ⟨rfl, fits⟩ := isNext
          split at done
          next ended =>
            rw [Option.some_inj] at done
            rw [ended, ← done, List.take_of_length_le (by simp)]
            refine ⟨rfl, ?_⟩
            intro count positive _ atMost
            rw [List.take_of_length_le (by simp at atMost ⊢; omega)]
            exact fits
          next more =>
            obtain ⟨isResult, onTheWay⟩ := inductionHypothesis done
            refine ⟨isResult, ?_⟩
            intro count positive atMost inside
            match count, positive with
            | 1, _ => exact fits
            | count + 2, _ =>
                exact onTheWay (count + 1) (Nat.succ_pos count) (by omega)
                  (by rw [List.length_cons] at inside; omega)

/-- The loop reads digits whose number fits. -/
theorem getIntegerPart_digits
    {str : List UInt8}
    (notEmpty : str ≠ [])
    {length : Nat}
    (positive : 0 < length)
    (areDigits : ∀ digit ∈ str.take length, isDigit 10 digit = true)
    {returnValue : Int}
    (notNegative : 0 ≤ returnValue)
    (fits : decimalValue returnValue (str.take length) < 2 ^ 63) :
    GetIntegerPart str length returnValue =
      some (decimalValue returnValue (str.take length)) := by
  induction str generalizing length returnValue with
  | nil => exact absurd rfl notEmpty
  | cons character str inductionHypothesis =>
      obtain ⟨length, rfl⟩ := Nat.exists_eq_succ_of_ne_zero
        (Nat.ne_of_gt positive)
      rw [Nat.succ_eq_add_one, List.take_succ_cons] at areDigits fits ⊢
      have isDigit := areDigits character List.mem_cons_self
      have rest := fun digit member =>
        areDigits digit (List.mem_cons_of_mem _ member)
      have digit := (decimal_character character isDigit).2
      have step : decimalValue returnValue (character :: str.take length) =
          decimalValue (returnValue * 10 + (character.toNat - 0x30))
            (str.take length) := rfl
      have larger : returnValue * 10 + (character.toNat - 0x30) ≤
          decimalValue (returnValue * 10 + (character.toNat - 0x30))
            (str.take length) := by
        rw [decimalValue_digits rest]
        have power : (1 : Int) ≤ 10 ^ (str.take length).length :=
          one_le_pow₀ (by decide)
        nlinarith
      rw [step] at fits ⊢
      have tens : int64? (returnValue * 10) = some (returnValue * 10) :=
        int64?_eq_some.mpr ⟨rfl, by omega, by omega⟩
      have next : int64? (returnValue * 10 + (character.toNat - 0x30)) =
          some (returnValue * 10 + (character.toNat - 0x30)) :=
        int64?_eq_some.mpr ⟨rfl, by omega, by omega⟩
      rw [GetIntegerPart, tens, Option.bind_some, next, Option.bind_some]
      split
      next ended =>
        rw [ended, List.take_nil]
        rfl
      next more =>
        cases length with
        | zero => rw [GetIntegerPart, List.take_zero]; rfl
        | succ length =>
            exact inductionHypothesis more (Nat.succ_pos length) rest
              (by omega) fits

namespace IntegerNumeral

theorem noPrefix (numeral : IntegerNumeral 10) : numeral.basePrefix = [] :=
  numeral.isPrefix.elim id fun both => absurd both.1 (by decide)

/-- The digits that the loop reads, and what it may read behind them. -/
theorem take_afterPrefix
    (numeral : IntegerNumeral 10)
    {length : Nat} :
    numeral.afterPrefix.take length = numeral.digits.take length ++
      List.replicate (min (length - numeral.digits.length)
        numeral.spacesAfter) 0x20 := by
  rw [afterPrefix, List.take_append, List.take_replicate]

theorem decimalValue_of_digits
    (numeral : IntegerNumeral 10) :
    decimalValue 0 numeral.digits = numeral.magnitude := by
  rw [decimalValue_digits numeral.areDigits, zero_mul, zero_add]
  rfl

/-- The first digits of a numeral are less than the numeral. -/
theorem decimalValue_take
    (numeral : IntegerNumeral 10)
    (length : Nat) :
    0 ≤ decimalValue 0 (numeral.digits.take length) ∧
      decimalValue 0 (numeral.digits.take length) *
          10 ^ (numeral.digits.length - length) ≤ numeral.magnitude ∧
      (numeral.magnitude : Int) <
        (decimalValue 0 (numeral.digits.take length) + 1) *
          10 ^ (numeral.digits.length - length) := by
  have front : ∀ digit ∈ numeral.digits.take length, isDigit 10 digit = true :=
    fun digit member => numeral.areDigits digit (List.mem_of_mem_take member)
  have back : ∀ digit ∈ numeral.digits.drop length, isDigit 10 digit = true :=
    fun digit member => numeral.areDigits digit (List.mem_of_mem_drop member)
  have whole := numeral.decimalValue_of_digits
  rw [← List.take_append_drop length numeral.digits, decimalValue_append,
    decimalValue_digits back, List.length_drop] at whole
  have small : ofNumeral 10 ((numeral.digits.drop length).map digitValue) <
      10 ^ ((numeral.digits.drop length).map digitValue).length := by
    apply ofNumeral_lt (by decide)
    intro digit member
    obtain ⟨character, isCharacter, rfl⟩ := List.mem_map.mp member
    exact isDigit_lt.mp (back character isCharacter)
  rw [List.length_map, List.length_drop] at small
  have smallInt : (ofNumeral 10
      ((numeral.digits.drop length).map digitValue) : Int) <
        10 ^ (numeral.digits.length - length) := by
    exact_mod_cast small
  have positive : (0 : Int) ≤ decimalValue 0 (numeral.digits.take length) := by
    rw [decimalValue_digits front, zero_mul, zero_add]
    exact Nat.cast_nonneg _
  refine ⟨positive, ?_, ?_⟩
  · omega
  · rw [add_mul, one_mul]
    omega

/-- Which numbers of digits and of spaces behind them the loop reads up to their
end. -/
def ReadToEnd {radix : Nat} (numeral : IntegerNumeral radix) : Prop :=
  if numeral.digits.length < 99 then numeral.spacesAfter = 0
  else numeral.digits.length = 99 ∨ numeral.magnitude = 0

theorem getIntegerPart_after_of_some
    (numeral : IntegerNumeral 10)
    (fits : numeral.magnitude < 2 ^ 64)
    (done : GetIntegerPart numeral.afterPrefix 99 0 =
      some (toInt64 numeral.magnitude)) :
    numeral.magnitude < 2 ^ 63 ∧ numeral.ReadToEnd := by
  have notEmpty := List.length_pos_of_ne_nil numeral.notEmpty
  have size : numeral.afterPrefix.length =
      numeral.digits.length + numeral.spacesAfter := by
    rw [afterPrefix, List.length_append, List.length_replicate]
  obtain ⟨isResult, onTheWay⟩ := getIntegerPart_some done
  rw [numeral.take_afterPrefix] at isResult
  rw [ReadToEnd]
  by_cases long : 99 ≤ numeral.digits.length
  · obtain ⟨positive, above, -⟩ := numeral.decimalValue_take 99
    rw [Nat.sub_eq_zero_of_le long, Nat.zero_min, List.replicate_zero,
      List.append_nil] at isResult
    rw [← isResult] at positive above
    have small : numeral.magnitude < 2 ^ 63 := by
      rw [toInt64] at positive
      omega
    rw [toInt64_of_fits (by omega) (by omega)] at above
    refine ⟨small, ?_⟩
    rw [if_neg (by omega)]
    by_cases whole : numeral.digits.length = 99
    · exact .inl whole
    · right
      have power : (10 : Int) ≤ 10 ^ (numeral.digits.length - 99) :=
        le_self_pow₀ (by decide) (by omega)
      have tenfold := mul_le_mul_of_nonneg_left power
        (Int.natCast_nonneg numeral.magnitude)
      omega
  · have intermediate := onTheWay numeral.digits.length notEmpty
      (by omega) (by omega)
    have cut : numeral.afterPrefix.take numeral.digits.length =
        numeral.digits := List.take_left' rfl
    rw [cut, numeral.decimalValue_of_digits] at intermediate
    have spaces := decimalValue_spaces numeral.magnitude
      (min (99 - numeral.digits.length) numeral.spacesAfter)
    rw [List.take_of_length_le (by omega), decimalValue_append,
      numeral.decimalValue_of_digits,
      toInt64_of_fits (by omega) intermediate.2] at isResult
    rw [← isResult] at spaces
    refine ⟨by omega, ?_⟩
    rw [if_pos (by omega)]
    by_contra hasSpaces
    have power : (10 : Int) ≤
        10 ^ min (99 - numeral.digits.length) numeral.spacesAfter :=
      le_self_pow₀ (by decide) (by omega)
    generalize (10 : Int) ^ _ = factor at spaces power
    have product : (factor - 1) * (9 * numeral.magnitude - 16 : Int) = 0 := by
      rw [sub_mul, one_mul, ← spaces, sub_self]
    rcases mul_eq_zero.mp product with one | sixteen <;> omega

theorem getIntegerPart_after_of_readToEnd
    (numeral : IntegerNumeral 10)
    (small : numeral.magnitude < 2 ^ 63)
    (readToEnd : numeral.ReadToEnd) :
    GetIntegerPart numeral.afterPrefix 99 0 =
      some (toInt64 numeral.magnitude) := by
  have notEmpty := List.length_pos_of_ne_nil numeral.notEmpty
  rw [ReadToEnd] at readToEnd
  have onlyDigits : numeral.afterPrefix.take 99 = numeral.digits.take 99 := by
    have none : min (99 - numeral.digits.length) numeral.spacesAfter = 0 := by
      split at readToEnd <;> omega
    rw [numeral.take_afterPrefix, none, List.replicate_zero, List.append_nil]
  have areDigits : ∀ digit ∈ numeral.afterPrefix.take 99,
      isDigit 10 digit = true := by
    rw [onlyDigits]
    exact fun digit member =>
      numeral.areDigits digit (List.mem_of_mem_take member)
  have isValue : decimalValue 0 (numeral.afterPrefix.take 99) =
      numeral.magnitude := by
    rw [onlyDigits]
    by_cases atMost : numeral.digits.length ≤ 99
    · rw [List.take_of_length_le atMost, numeral.decimalValue_of_digits]
    · have zero : numeral.magnitude = 0 := by
        split at readToEnd <;> omega
      obtain ⟨positive, above, -⟩ := numeral.decimalValue_take 99
      have power : (1 : Int) ≤ 10 ^ (numeral.digits.length - 99) :=
        one_le_pow₀ (by decide)
      have onefold := mul_le_mul_of_nonneg_left power positive
      omega
  rw [toInt64_of_fits (by omega) (by omega), ← isValue]
  apply getIntegerPart_digits _ (by decide) areDigits (Int.le_refl 0)
  · rw [isValue]
    omega
  · apply List.ne_nil_of_length_pos
    rw [afterPrefix, List.length_append]
    omega

end IntegerNumeral

/-- A result of the loop fits. -/
theorem getIntegerPart_fits
    {str : List UInt8}
    (notEmpty : str ≠ [])
    {length : Nat}
    (positive : 0 < length)
    {returnValue result : Int}
    (done : GetIntegerPart str length returnValue = some result) :
    -2 ^ 63 ≤ result ∧ result < 2 ^ 63 := by
  obtain ⟨isResult, onTheWay⟩ := getIntegerPart_some done
  have size := List.length_pos_of_ne_nil notEmpty
  rw [isResult, List.take_eq_take_min]
  exact onTheWay (min length str.length) (by omega) (Nat.min_le_left _ _)
    (Nat.min_le_right _ _)

namespace IntegerNumeral

/-- No character of a numeral of base 10 is more than a digit. -/
theorem forall_mem_text_le (numeral : IntegerNumeral 10) :
    ∀ character ∈ numeral.text, character.toNat ≤ 0x39 := by
  have isSign := numeral.isSign
  simp only [List.mem_cons, List.not_mem_nil, or_false] at isSign
  have space : (0x20 : UInt8).toNat ≤ 0x39 := by decide
  have digits : ∀ character ∈ numeral.digits, character.toNat ≤ 0x39 := by
    intro character member
    have digit := numeral.areDigits character member
    have value := (decimal_character character digit).2
    have small := isDigit_lt.mp digit
    omega
  have sign : ∀ character ∈ numeral.sign, character.toNat ≤ 0x39 := by
    rcases isSign with none | minus | plus
    · rw [none]
      exact List.forall_mem_nil _
    · rw [minus, List.forall_mem_singleton]
      decide
    · rw [plus, List.forall_mem_singleton]
      decide
  rw [text, numeral.noPrefix, List.nil_append]
  intro character member
  rcases List.mem_append.mp member with before | member
  · rw [List.eq_of_mem_replicate before]
    exact space
  rcases List.mem_append.mp member with inSign | member
  · exact sign character inSign
  rcases List.mem_append.mp member with digit | after
  · exact digits character digit
  · rw [List.eq_of_mem_replicate after]
    exact space

theorem magnitude_lt (numeral : IntegerNumeral 10) :
    numeral.magnitude < 10 ^ numeral.digits.length := by
  rw [magnitude, ← List.length_map digitValue]
  apply ofNumeral_lt (by decide)
  intro digit member
  obtain ⟨character, isCharacter, rfl⟩ := List.mem_map.mp member
  exact isDigit_lt.mp (numeral.areDigits character isCharacter)

/-- With spaces in front the loop does not compute the value. -/
theorem getIntegerPart_text_ne
    (numeral : IntegerNumeral 10)
    (hasSpaces : numeral.spacesBefore ≠ 0) :
    GetIntegerPart numeral.text 99 0 ≠ some (toInt64 numeral.value) := by
  intro done
  have isResult := (getIntegerPart_some done).1
  obtain ⟨count, isCount⟩ := Nat.exists_eq_succ_of_ne_zero hasSpaces
  have small := numeral.forall_mem_text_le
  have isText : numeral.text =
      0x20 :: (List.replicate count 0x20 ++ numeral.body) := by
    rw [text_eq, isCount, List.replicate_succ, List.cons_append]
  have inside : numeral.digits.length + 1 ≤ numeral.text.length := by
    rw [isText, body]
    simp only [List.length_cons, List.length_append]
    omega
  generalize List.replicate count 0x20 ++ numeral.body = rest at isText
  have longer : numeral.text.length = rest.length + 1 := by
    rw [isText, List.length_cons]
  rw [isText] at isResult small
  have step : decimalValue 0 ((0x20 :: rest).take 99) =
      decimalValue (-16) (rest.take 98) := rfl
  have below : decimalValue (-16) (rest.take 98) <
      (-16 + 1) * 10 ^ (rest.take 98).length := by
    apply decimalValue_lt
    exact fun character member => small character
      (List.mem_cons_of_mem _ (List.mem_of_mem_take member))
  have above := (getIntegerPart_fits (List.ne_nil_of_length_pos
    (by omega : 0 < numeral.text.length)) (by decide) done).1
  rw [← step, ← isResult] at below
  have few : (rest.take 98).length < 18 := by
    by_contra many
    have large : (10 : Int) ^ 18 ≤ 10 ^ (rest.take 98).length :=
      pow_le_pow_right₀ (by decide) (by omega)
    omega
  have whole : rest.length = (rest.take 98).length := by
    rw [List.length_take] at few ⊢
    omega
  have digits : (10 : Nat) ^ numeral.digits.length ≤ 10 ^ rest.length :=
    Nat.pow_le_pow_right (by decide) (by omega)
  have power : (10 : Nat) ^ rest.length ≤ 10 ^ 17 :=
    Nat.pow_le_pow_right (by decide) (by omega)
  have magnitude := numeral.magnitude_lt
  have bounds : -(numeral.magnitude : Int) ≤ numeral.value ∧
      numeral.value ≤ numeral.magnitude := by
    rw [value]
    split <;> omega
  rw [toInt64_of_fits (by omega) (by omega), ← whole] at below
  have cast : ((10 ^ rest.length : Nat) : Int) = 10 ^ rest.length := by
    push_cast
    rfl
  omega

/-- When the build with its own loops returns the value of a numeral of base
10. -/
theorem decimal_iff
    (numeral : IntegerNumeral 10)
    (lower : -2 ^ 63 ≤ numeral.value)
    (upper : numeral.value < 2 ^ 64) :
    NativeToInt64 numeral.text 10 = .returned (toInt64 numeral.value) ↔
      numeral.spacesBefore = 0 ∧ numeral.magnitude < 2 ^ 63 ∧
        numeral.ReadToEnd := by
  have after (fits : numeral.magnitude < 2 ^ 64) :
      GetIntegerPart numeral.afterPrefix 99 0 =
        some (toInt64 numeral.magnitude) ↔
          numeral.magnitude < 2 ^ 63 ∧ numeral.ReadToEnd :=
    ⟨numeral.getIntegerPart_after_of_some fits,
      fun both => numeral.getIntegerPart_after_of_readToEnd both.1 both.2⟩
  obtain ⟨isMinus, isPlus, skipped⟩ := numeral.skipSign_body (by decide)
  rw [numeral.noPrefix, List.nil_append] at skipped
  rw [NativeToInt64, if_pos rfl]
  by_cases front : numeral.spacesBefore = 0
  · rw [and_iff_right front, text_eq, front, List.replicate_zero,
      List.nil_append]
    by_cases minus : numeral.sign = [0x2D]
    · have isValue := value_of_minus minus
      have isTail : numeral.body.tail = numeral.afterPrefix := by
        rw [← skipped, skipSign, if_pos (.inl (isMinus.mpr minus))]
      simp only [if_pos (isMinus.mpr minus), isTail]
      have notEmpty : numeral.afterPrefix ≠ [] :=
        List.append_ne_nil_of_left_ne_nil numeral.notEmpty _
      rw [← after (by omega), isValue, toInt64_of_fits (by omega) (by omega)]
      cases done : GetIntegerPart numeral.afterPrefix 99 0 with
      | none => simp
      | some result =>
          have fits := getIntegerPart_fits notEmpty (by decide) done
          rw [Option.bind_some, Option.some_inj]
          constructor
          · intro returned
            split at returned
            next => cases returned
            next negated isNegated =>
              rw [int64?_eq_some] at isNegated
              rw [Conversion.returned.injEq] at returned
              rw [toInt64_of_fits (by omega) (by omega)]
              omega
          · intro same
            have small := ((after (by omega)).mp (same ▸ done)).1
            rw [toInt64_of_fits (by omega) (by omega)] at same
            have negated : int64? (result * -1) =
                some (-(numeral.magnitude : Int)) :=
              int64?_eq_some.mpr ⟨by omega, by omega, by omega⟩
            rw [negated]
    · have isValue := value_of_not_minus minus
      have isResult : (if numeral.body.head? = some 0x2B then
          GetIntegerPart numeral.body.tail 99 0
            else GetIntegerPart numeral.body 99 0) =
              GetIntegerPart numeral.afterPrefix 99 0 := by
        rw [← skipped, skipSign]
        by_cases plus : numeral.body.head? = some 0x2B
        · rw [if_pos plus, if_pos (.inr plus)]
        · rw [if_neg plus, if_neg]
          exact not_or_intro (mt isMinus.mp minus) plus
      simp only [if_neg (mt isMinus.mp minus), isResult]
      rw [← after (by omega), isValue]
      cases GetIntegerPart numeral.afterPrefix 99 0 with
      | none => simp
      | some result => simp
  · have notDone := numeral.getIntegerPart_text_ne front
    obtain ⟨count, isCount⟩ := Nat.exists_eq_succ_of_ne_zero front
    have isHead : numeral.text.head? = some 0x20 := by
      rw [text_eq, isCount, List.replicate_succ, List.cons_append,
        List.head?_cons]
    have noMinus : ¬numeral.text.head? = some 0x2D := by
      rw [isHead]
      decide
    have noPlus : ¬numeral.text.head? = some 0x2B := by
      rw [isHead]
      decide
    apply iff_of_false
    · simp only [if_neg noMinus, if_neg noPlus]
      intro returned
      split at returned
      next => cases returned
      next result done =>
        rw [Conversion.returned.injEq] at returned
        exact notDone (returned ▸ done)
    · exact fun all => front all.1

end IntegerNumeral

/-! ## Both builds -/

/-- What the build with its own loops converts. -/
def IntegerNumeral.OwnLoopsConvert
    {radix : Nat}
    (numeral : IntegerNumeral radix) : Prop :=
  if radix = 10 then
    numeral.spacesBefore = 0 ∧ numeral.magnitude < 2 ^ 63 ∧ numeral.ReadToEnd
  else
    numeral.magnitude = 0 ∨
      numeral.spacesBefore = 0 ∧ numeral.sign = [] ∧
        numeral.basePrefix ≠ [0x30, 0x58]

/-- The condition on the string: it is a numeral of a value inside the range
that both builds convert. -/
def ParsingFits
    (range : ConversionRange)
    (radix : Nat)
    (str : List UInt8) : Prop :=
  ∃ numeral : IntegerNumeral radix, numeral.text = str ∧
    range.Contains numeral.value ∧
    ¬(range.isUInt64 ∧ numeral.sign = [0x2D]) ∧ numeral.OwnLoopsConvert

section Both

variable
  {range : ConversionRange}
  {radix : Nat}

theorem ConversionRange.Contains.bounds
    {value : Int}
    (contained : range.Contains value) :
    -2 ^ 63 ≤ value ∧ value < 2 ^ 64 := by
  have lower := range.lower
  have upper := range.upper
  rw [ConversionRange.Contains] at contained
  split at contained <;> omega

/-- When the build with its own loops returns the value of a numeral. -/
theorem ownLoops_iff
    (isRadix : radix = 10 ∨ radix = 16)
    (numeral : IntegerNumeral radix)
    (contained : range.Contains numeral.value) :
    NativeToInt64 numeral.text radix = .returned (toInt64 numeral.value) ↔
      numeral.OwnLoopsConvert := by
  obtain ⟨lower, upper⟩ := contained.bounds
  rcases isRadix with rfl | rfl
  · exact numeral.decimal_iff lower upper
  · exact numeral.hexadecimal_iff lower upper

/-- The build with its own loops never raises an exception. -/
theorem not_raises_nativeToInt64
    (isRadix : radix = 10 ∨ radix = 16)
    (str : List UInt8) :
    ¬(NativeToInt64 str radix).Raises := by
  rw [NativeToInt64]
  rcases isRadix with rfl | rfl
  · rw [if_pos rfl]
    dsimp only
    split <;> exact id
  · rw [if_neg (by decide), if_pos rfl]
    exact id

/-- A conversion of a numeral inside the range is right if it returns its
value. -/
theorem answers_numeral_iff
    (atMost : radix ≤ 16)
    (numeral : IntegerNumeral radix)
    (contained : range.Contains numeral.value)
    (conversion : Conversion) :
    Answers range radix numeral.text conversion ↔
      conversion = .returned (toInt64 numeral.value) := by
  have denotes : DenotesIn range radix numeral.text numeral.value :=
    ⟨numeral, rfl, rfl, contained⟩
  constructor
  · intro answers
    exact (answers.1 _).mpr ⟨numeral.value, denotes, rfl⟩
  · rintro rfl
    refine ⟨?_, fun none => absurd ⟨_, denotes⟩ none⟩
    intro result
    rw [Conversion.returned.injEq]
    constructor
    · rintro rfl
      exact ⟨numeral.value, denotes, rfl⟩
    · rintro ⟨value, ⟨other, isText, rfl, -⟩, rfl⟩
      rw [IntegerNumeral.value_eq_of_text_eq atMost isText]

theorem parsesRight_iff_fits
    (isRadix : radix = 10 ∨ radix = 16)
    (str : List UInt8) :
    ParsesRight range radix str ↔ ParsingFits range radix str := by
  have atMost : radix ≤ 16 := by omega
  rw [ParsesRight]
  constructor
  · rintro ⟨anyBase, ownLoops, -⟩
    by_cases denotes : ∃ value, DenotesIn range radix str value
    · obtain ⟨value, numeral, rfl, rfl, contained⟩ := denotes
      rw [answers_numeral_iff atMost numeral contained] at anyBase ownLoops
      rw [numeral.anyBase_text atMost contained] at anyBase
      refine ⟨numeral, rfl, contained, ?_,
        (ownLoops_iff isRadix numeral contained).mp ownLoops⟩
      intro minus
      rw [if_pos minus] at anyBase
      cases anyBase
    · exact absurd (ownLoops.2 denotes) (not_raises_nativeToInt64 isRadix str)
  · rintro ⟨numeral, rfl, contained, noMinus, convert⟩
    have anyBase := numeral.anyBase_text atMost contained
    rw [if_neg noMinus] at anyBase
    have ownLoops := (ownLoops_iff isRadix numeral contained).mpr convert
    rw [anyBase, ownLoops, answers_numeral_iff atMost numeral contained]
    exact ⟨rfl, rfl, fun _ => Iff.rfl, Iff.rfl⟩

end Both

/-- The range of `Int32`. -/
def int32Range : ConversionRange :=
  { isSigned := true
    minValue := -2 ^ 31
    maxValue := 2 ^ 31 - 1
    lower := by decide
    upper := by decide
    unsigned := nofun }

theorem parsesRight_iff_fits_five :
    ParsesRight int32Range 10 [0x35] ↔ ParsingFits int32Range 10 [0x35] :=
  parsesRight_iff_fits (.inl rfl) [0x35]

/-- A space behind the digit 5 is taken for a digit, and the other build makes
the greatest number of one that is too large. -/
theorem parsesRight_trailingSpace :
    NativeToInt64 [0x35, 0x20] 10 = .returned 34 ∧
      ¬ParsesRight int32Range 10 [0x35, 0x20] ∧
      NativeToInt64AnyBase (List.replicate 20 0x39) true (-2 ^ 63) (2 ^ 63 - 1)
        10 = .returned (2 ^ 63 - 1) := by
  refine ⟨by decide, ?_, by decide⟩
  rintro ⟨-, ownLoops, -⟩
  let five : IntegerNumeral 10 :=
    { spacesBefore := 0
      sign := []
      isSign := by decide
      basePrefix := []
      isPrefix := .inl rfl
      digits := [0x35]
      notEmpty := by decide
      areDigits := List.forall_mem_singleton.mpr (by decide)
      spacesAfter := 1 }
  have isValue : five.value = 5 := by decide
  have contained : int32Range.Contains five.value := by
    rw [isValue, ConversionRange.Contains, if_neg (by decide)]
    decide
  have returned := (answers_numeral_iff (by decide) five contained _).mp ownLoops
  rw [isValue] at returned
  revert returned
  decide

end Convert

end NanoClr
