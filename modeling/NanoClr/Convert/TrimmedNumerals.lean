import NanoClr.Convert.TrimZeros

/-!
# Trimmed numbers

Trimming keeps the number unless a zero of the exponent is taken for one of the
fraction.
-/

namespace NanoClr

namespace Convert

namespace FloatNumeral

variable {numeral : FloatNumeral}

theorem front_noPoint : '.' ∉ numeral.front := by
  rw [front, List.mem_append, not_or]
  refine ⟨?_, not_mem_digits numeral.wholeDigits rfl⟩
  have isSign := numeral.isSign
  simp only [signs, List.mem_cons, List.not_mem_nil, or_false] at isSign
  rcases isSign with same | same | same <;> simp [same]

theorem exponentPart_eq_nil_iff :
    numeral.exponentPart = [] ↔ numeral.exponent = [] := by
  constructor
  · intro none
    exact (List.append_eq_nil_iff.mp (List.append_eq_nil_iff.mp none).2).2
  · intro none
    have noMarker := numeral.exponentIff.mp none
    rw [exponentPart, noMarker, numeral.signIsMarked noMarker, none]
    rfl

/-- An exponent starts with its marker. -/
theorem exponentPart_eq_cons
    (isMarked : numeral.exponent ≠ []) :
    ∃ marker, numeral.marker = [marker] ∧ (marker = 'e' ∨ marker = 'E') ∧
      numeral.exponentPart =
        marker :: (numeral.exponentSign ++ numeral.exponent) := by
  rcases numeral.isMarker with none | small | large
  · exact absurd (numeral.exponentIff.mpr none) isMarked
  · exact ⟨'e', small, .inl rfl, by rw [exponentPart, small]; rfl⟩
  · exact ⟨'E', large, .inr rfl, by rw [exponentPart, large]; rfl⟩

theorem keptFraction_digits :
    ∀ digit ∈ numeral.keptFraction, digit.isDigit = true :=
  numeral.trim.fractionDigits

theorem keptFraction_noZero :
    numeral.keptFraction.getLast? ≠ some '0' := by
  obtain ⟨_, _, noZero⟩ := exists_zeros numeral.fraction
  exact noZero

theorem exists_fraction_eq (numeral : FloatNumeral) :
    ∃ count, numeral.fraction =
      numeral.keptFraction ++ List.replicate count '0' := by
  obtain ⟨count, same, _⟩ := exists_zeros numeral.fraction
  exact ⟨count, same⟩

@[simp] theorem trim_keptFraction :
    numeral.trim.keptFraction = numeral.keptFraction :=
  List.rdropWhile_idempotent _ _

/-- Zeros at the end of the fraction do not count. -/
theorem value_trim : numeral.trim.value = numeral.value := by
  obtain ⟨count, same⟩ := exists_fraction_eq numeral
  have sameNumber : numberOf (numeral.whole ++ numeral.fraction) =
      numberOf (numeral.whole ++ numeral.keptFraction) * 10 ^ count := by
    rw [same, ← List.append_assoc, numberOf_zeros]
  have length : (numeral.fraction.length : Int) =
      numeral.keptFraction.length + count := by
    conv_lhs => rw [same, List.length_append, List.length_replicate]
    exact Nat.cast_add _ _
  have ten : (10 : Rat) ≠ 0 := by decide
  rw [value, value, sameNumber, length, ← sub_sub, zpow_sub₀ ten _ (count : Int),
    zpow_natCast, Nat.cast_mul, Nat.cast_pow, Nat.cast_ofNat]
  have power : (10 : Rat) ^ count ≠ 0 := pow_ne_zero count ten
  rw [← mul_assoc, mul_assoc _ (10 ^ count), mul_div_cancel₀ _ power]
  rfl

/-- What is kept in front of the zeros of the fraction. -/
theorem exists_keptFront (numeral : FloatNumeral) :
    ∃ front last, numeral.front ++ '.' :: numeral.keptFraction =
        front ++ [last] ∧
      keptFront front last = numeral.front ++ pointed numeral.keptFraction ∧
        (last = '.' ↔ numeral.keptFraction = []) := by
  rcases List.eq_nil_or_concat' numeral.keptFraction with
    none | ⟨digits, last, isKept⟩
  · refine ⟨numeral.front, '.', by rw [none], ?_, iff_of_true rfl none⟩
    rw [keptFront, if_pos rfl, none, pointed, if_pos rfl, List.append_nil]
  · have isDigit : last.isDigit = true :=
      numeral.keptFraction_digits last (by simp [isKept])
    have noPoint : last ≠ '.' := by
      rintro rfl
      cases isDigit
    refine ⟨numeral.front ++ '.' :: digits, last, by simp [isKept], ?_,
      iff_of_false noPoint (by simp [isKept])⟩
    rw [keptFront, if_neg noPoint, isKept, pointed, if_neg (by simp)]
    simp

/-- The scan behind the fraction without the zeros at its end. -/
theorem scanZeros_kept
    {length : Nat}
    (rest : List Char) :
    scanZeros length (numeral.front ++ '.' :: (numeral.keptFraction ++ rest))
        0 false (-1) =
      scanZeros length rest
        (numeral.front ++ '.' :: numeral.keptFraction).length true (-1) := by
  rw [scanZeros_front front_noPoint,
    scanZeros_reset (noMarker_of_digits keptFraction_digits)
      keptFraction_noZero fun _ => rfl,
    List.length_append, List.length_cons]
  congr 1
  omega

theorem text_eq
    (someFraction : numeral.fraction ≠ []) :
    numeral.text =
      numeral.front ++ '.' :: (numeral.fraction ++ numeral.exponentPart) := by
  rw [text, pointed, if_neg someFraction, List.cons_append]

/-- The zeros at the end of the fraction are removed, if there is room for the
exponent. -/
theorem removePrependedZeros_zeros
    (someZeros : numeral.keptFraction ≠ numeral.fraction) :
    nf_RemovePrependedZeros numeral.text =
      if numeral.exponentPart.length ≤ numeral.removedLength ∨
          numeral.exponent = [] then
        some numeral.trim.text
      else none := by
  obtain ⟨count, isFraction⟩ := exists_fraction_eq numeral
  obtain ⟨front, last, isFront, isKept, isPoint⟩ := exists_keptFront numeral
  obtain ⟨more, rfl⟩ : ∃ more, count = more + 1 := by
    cases count with
    | zero =>
        rw [List.replicate_zero, List.append_nil] at isFraction
        exact absurd isFraction.symm someZeros
    | succ more => exact ⟨more, rfl⟩
  have someFraction : numeral.fraction ≠ [] := by
    rw [isFraction]
    simp
  have isText : numeral.text = front ++ last ::
      (List.replicate (more + 1) '0' ++ numeral.exponentPart) := by
    rw [text_eq someFraction, isFraction, List.append_assoc,
      ← List.cons_append, ← List.append_assoc, isFront, List.append_assoc]
    rfl
  have atZeros : (numeral.front ++ '.' :: numeral.keptFraction).length =
      front.length + 1 := by
    rw [isFront, List.length_append, List.length_singleton]
  have scans : scanZeros numeral.text.length numeral.text 0 false (-1) =
      { pointFound := true
        firstZero := (front.length + 1 : Nat)
        nextNonZero := front.length + 1 +
          (List.replicate (more + 1) '0').length } := by
    have isLength : numeral.text.length = front.length + 1 + (more + 1) +
        numeral.exponentPart.length := by
      rw [isText]
      simp only [List.length_append, List.length_cons, List.length_replicate]
      omega
    generalize numeral.text.length = length at isLength ⊢
    rw [text_eq someFraction, isFraction, List.append_assoc, scanZeros_kept,
      scanZeros_zeros, atZeros, List.length_replicate]
    by_cases isMarked : numeral.exponent = []
    · have none := exponentPart_eq_nil_iff.mpr isMarked
      rw [none, List.length_nil] at isLength
      rw [none, scanZeros, isLength]
      rfl
    · obtain ⟨marker, _, isMarker, isPart⟩ := exponentPart_eq_cons isMarked
      rw [isPart, scanZeros, if_neg Bool.true_eq_false.mp, if_neg (by omega),
        if_pos isMarker]
  have sameText : keptFront front last ++ numeral.exponentPart =
      numeral.trim.text := by
    rw [isKept, List.append_assoc]
    rfl
  have removed : (keptFront front last).length + numeral.removedLength =
      front.length + 1 + (List.replicate (more + 1) '0').length := by
    have whole : (pointed numeral.fraction).length =
        numeral.keptFraction.length + (more + 1) + 1 := by
      rw [pointed, if_neg someFraction, List.length_cons, isFraction,
        List.length_append, List.length_replicate]
    have kept : (pointed numeral.keptFraction).length ≤
        numeral.keptFraction.length + 1 := by
      rw [pointed]
      split <;> simp
    rw [isKept, removedLength, whole, List.length_append, List.length_replicate,
      ← atZeros, List.length_append, List.length_cons]
    omega
  rw [removePrependedZeros_eq scans isText, sameText, ← removed]
  simp only [Nat.add_le_add_iff_left, exponentPart_eq_nil_iff]

/-- The text without the zeros at the end of the exponent. -/
def cutText (numeral : FloatNumeral) : List Char :=
  numeral.front ++ (pointed numeral.fraction ++ (numeral.marker ++
    (numeral.exponentSign ++ numeral.exponent.rdropWhile (· = '0'))))

/-- No sign ends with a zero, and none has a marker or a point. -/
theorem sign_clean
    {sign : List Char}
    (isSign : sign ∈ signs) :
    sign.getLast? ≠ some '0' ∧ ∀ character ∈ sign,
      character ≠ 'e' ∧ character ≠ 'E' ∧ character ≠ '.' := by
  simp only [signs, List.mem_cons, List.not_mem_nil, or_false] at isSign
  rcases isSign with rfl | rfl | rfl <;> simp

theorem exponentPart_noPoint : '.' ∉ numeral.exponentPart := by
  rw [exponentPart, List.mem_append, List.mem_append, not_or, not_or]
  refine ⟨?_, ?_, not_mem_digits numeral.exponentDigits rfl⟩
  · rcases numeral.isMarker with none | small | large
    · simp [none]
    · simp [small]
    · simp [large]
  · intro member
    exact ((sign_clean numeral.isExponentSign).2 '.' member).2.2 rfl

/-- The scan of an exponent finds the zeros at its end. -/
theorem scanZeros_exponent
    {length i : Nat}
    (isMarked : numeral.exponent ≠ []) :
    ∃ count, numeral.exponent =
        numeral.exponent.rdropWhile (· = '0') ++ List.replicate count '0' ∧
      scanZeros length numeral.exponentPart i true (-1) =
        scanZeros length (List.replicate count '0')
          (i + (numeral.marker ++ (numeral.exponentSign ++
            numeral.exponent.rdropWhile (· = '0'))).length) true (-1) := by
  obtain ⟨count, isExponent, noZero⟩ := exists_zeros numeral.exponent
  obtain ⟨marker, same, isMarker, isPart⟩ := exponentPart_eq_cons isMarked
  have signClean := sign_clean numeral.isExponentSign
  have nonzero : marker ≠ '0' := by
    rcases isMarker with rfl | rfl <;> decide
  have keptDigits : ∀ digit ∈ numeral.exponent.rdropWhile (· = '0'),
      digit.isDigit = true := fun digit member =>
    numeral.exponentDigits digit ((List.rdropWhile_prefix _ _).subset member)
  refine ⟨count, isExponent, ?_⟩
  generalize numeral.exponent.rdropWhile (· = '0') = kept
    at isExponent noZero keptDigits ⊢
  rw [isPart, scanZeros_other nonzero, isExponent, ← List.append_assoc,
    scanZeros_reset, same, List.length_append, List.length_append,
    List.length_append, List.length_singleton, Nat.add_assoc]
  · intro character member
    rcases List.mem_append.mp member with inSign | inKept
    · have clean := signClean.2 character inSign
      exact ⟨clean.1, clean.2.1⟩
    · exact noMarker_of_digits keptDigits character inKept
  · rcases List.eq_nil_or_concat' kept with rfl | ⟨front, last, rfl⟩
    · rw [List.append_nil]
      exact signClean.1
    · rw [← List.append_assoc, List.getLast?_concat] 
      rwa [List.getLast?_concat] at noZero
  · exact fun _ => rfl

/-- The scan of a number whose fraction has no zeros at its end. -/
theorem scanZeros_text
    {length : Nat}
    (someFraction : numeral.fraction ≠ [])
    (noZeros : numeral.keptFraction = numeral.fraction) :
    scanZeros length numeral.text 0 false (-1) =
      scanZeros length numeral.exponentPart
        (numeral.front ++ '.' :: numeral.fraction).length true (-1) := by
  rw [text_eq someFraction, ← noZeros]
  exact scanZeros_kept numeral.exponentPart

/-- There is nothing to trim. -/
theorem removePrependedZeros_same
    (noZeros : numeral.keptFraction = numeral.fraction)
    (exponentKept : numeral.fraction = [] ∨
      numeral.exponent.getLast? ≠ some '0') :
    nf_RemovePrependedZeros numeral.text = some numeral.text := by
  by_cases someFraction : numeral.fraction = []
  · apply removePrependedZeros_noPoint
    rw [text, pointed, if_pos someFraction, List.nil_append, List.mem_append,
      not_or]
    exact ⟨front_noPoint, exponentPart_noPoint⟩
  · have scanned := @scanZeros_text numeral numeral.text.length someFraction
      noZeros
    by_cases isMarked : numeral.exponent = []
    · rw [exponentPart_eq_nil_iff.mpr isMarked] at scanned
      exact removePrependedZeros_none scanned
    · obtain ⟨count, isExponent, scans⟩ := @scanZeros_exponent numeral
        numeral.text.length (numeral.front ++ '.' :: numeral.fraction).length
        isMarked
      have noZero := exponentKept.resolve_left someFraction
      cases count with
      | zero => exact removePrependedZeros_none (scanned.trans scans)
      | succ count =>
          rw [List.replicate_succ', ← List.append_assoc] at isExponent
          rw [isExponent, List.getLast?_concat] at noZero
          exact absurd rfl noZero

theorem text_eq_cutText
    {zeros : List Char}
    (isExponent : numeral.exponent =
      numeral.exponent.rdropWhile (· = '0') ++ zeros) :
    numeral.text = numeral.cutText ++ zeros := by
  rw [text, cutText, exponentPart]
  conv_lhs => rw [isExponent]
  simp only [List.append_assoc]

/-- The zeros at the end of the exponent are removed. -/
theorem removePrependedZeros_exponent
    (someFraction : numeral.fraction ≠ [])
    (noZeros : numeral.keptFraction = numeral.fraction)
    (zeroLast : numeral.exponent.getLast? = some '0') :
    ∃ count, numeral.exponent = numeral.exponent.rdropWhile (· = '0') ++
        List.replicate (count + 1) '0' ∧
      nf_RemovePrependedZeros numeral.text = some numeral.cutText := by
  have isMarked : numeral.exponent ≠ [] := by
    intro none
    rw [none] at zeroLast
    cases zeroLast
  obtain ⟨marker, same, isMarker, _⟩ := exponentPart_eq_cons isMarked
  obtain ⟨count, isExponent, scans⟩ := @scanZeros_exponent numeral
    numeral.text.length (numeral.front ++ '.' :: numeral.fraction).length
    isMarked
  obtain ⟨_, _, noZero⟩ := exists_zeros numeral.exponent
  cases count with
  | zero =>
      rw [List.replicate_zero, List.append_nil] at isExponent
      rw [isExponent] at zeroLast
      exact absurd zeroLast noZero
  | succ count =>
      refine ⟨count, isExponent, ?_⟩
      obtain ⟨front, last, isCut⟩ : ∃ front last,
          numeral.cutText = front ++ [last] := by
        refine (List.eq_nil_or_concat' numeral.cutText).resolve_left ?_
        simp [cutText, same]
      have isText := text_eq_cutText isExponent
      have length : numeral.cutText.length =
          (numeral.front ++ '.' :: numeral.fraction).length +
            (numeral.marker ++ (numeral.exponentSign ++
              numeral.exponent.rdropWhile (· = '0'))).length := by
        rw [cutText, pointed, if_neg someFraction, ← List.append_assoc,
          List.length_append]
      have noPoint : last ≠ '.' := by
        rintro rfl
        have isLast : numeral.cutText.getLast? = some '.' := by
          rw [isCut, List.getLast?_concat]
        rw [cutText, ← List.append_assoc, List.getLast?_append_of_ne_nil _
          (by simp [same])] at isLast
        apply numeral.exponentPart_noPoint
        rw [exponentPart, isExponent, ← List.append_assoc, ← List.append_assoc,
          List.append_assoc numeral.marker]
        exact List.mem_append_left _ (List.mem_of_getLast? isLast)
      have scans : scanZeros numeral.text.length numeral.text 0 false (-1) =
          { pointFound := true
            firstZero := (front.length + 1 : Nat)
            nextNonZero := front.length + 1 +
              (List.replicate (count + 1) '0').length } := by
        have atZeros : numeral.cutText.length = front.length + 1 := by
          rw [isCut, List.length_append, List.length_singleton]
        have whole : numeral.text.length = front.length + 1 +
            (List.replicate (count + 1) '0').length := by
          rw [isText, List.length_append, atZeros]
        rw [scanZeros_text someFraction noZeros, scans, ← length, atZeros,
          ← List.append_nil (List.replicate _ _), scanZeros_zeros, scanZeros,
          List.append_nil, whole]
      have parts : numeral.text =
          front ++ last :: (List.replicate (count + 1) '0' ++ []) := by
        rw [List.append_nil, isText, isCut, List.append_assoc]
        rfl
      have cuts := removePrependedZeros_eq scans parts
      rw [cuts, if_pos (Or.inr rfl), keptFront, if_neg noPoint, List.append_nil,
        isCut]

/-! ## The text determines the number -/

/-- A number whose text is that of another one up to the digits of the
exponent. -/
theorem parts_of_text
    {other : FloatNumeral}
    {digits : List Char}
    (someFraction : numeral.fraction ≠ [])
    (isMarked : numeral.marker ≠ [])
    (isDigits : ∀ digit ∈ digits, digit.isDigit = true)
    (same : other.text = numeral.front ++ (pointed numeral.fraction ++
      (numeral.marker ++ (numeral.exponentSign ++ digits)))) :
    other.sign = numeral.sign ∧ other.whole = numeral.whole ∧
      other.fraction = numeral.fraction ∧
        other.exponentSign = numeral.exponentSign ∧ other.exponent = digits := by
  have isExponent : numeral.exponent ≠ [] := fun none =>
    isMarked (numeral.exponentIff.mp none)
  obtain ⟨marker, isMarker, isE, _⟩ := exponentPart_eq_cons isExponent
  rw [pointed, if_neg someFraction, List.cons_append, isMarker] at same
  have otherFraction : other.fraction ≠ [] := by
    intro none
    have noPoint : '.' ∉ other.text := by
      rw [text, none, pointed, if_pos rfl, List.nil_append, List.mem_append,
        not_or]
      exact ⟨front_noPoint, exponentPart_noPoint⟩
    apply noPoint
    rw [same]
    exact List.mem_append_right _ List.mem_cons_self
  have noPoint : '.' ∉ other.fraction ++ other.exponentPart := by
    rw [List.mem_append, not_or]
    exact ⟨not_mem_digits other.fractionDigits rfl, exponentPart_noPoint⟩
  rw [text_eq otherFraction,
    List.append_cons_inj_of_notMem front_noPoint noPoint] at same
  obtain ⟨sameFront, -, sameRest⟩ := same
  have noMarker : marker.isDigit = false := by
    rcases isE with rfl | rfl <;> rfl
  have otherMarked : other.exponent ≠ [] := by
    intro none
    rw [exponentPart_eq_nil_iff.mpr none, List.append_nil] at sameRest
    apply not_mem_digits other.fractionDigits noMarker
    rw [sameRest]
    exact List.mem_append_right _ List.mem_cons_self
  obtain ⟨otherMarker, _, _, isPart⟩ := exponentPart_eq_cons otherMarked
  have noMarkerBehind : marker ∉ other.exponentSign ++ other.exponent := by
    rw [List.mem_append, not_or]
    refine ⟨?_, not_mem_digits other.exponentDigits noMarker⟩
    intro member
    have clean := (sign_clean other.isExponentSign).2 marker member
    exact isE.elim clean.1 clean.2.1
  rw [isPart, List.singleton_append, List.append_cons_inj_of_notMem
    (not_mem_digits other.fractionDigits noMarker) noMarkerBehind] at sameRest
  obtain ⟨sameFraction, -, sameExponent⟩ := sameRest
  have fronts := signed_inj other.isSign numeral.isSign other.wholeDigits
    numeral.wholeDigits sameFront
  have exponents := signed_inj other.isExponentSign numeral.isExponentSign
    other.exponentDigits isDigits sameExponent
  exact ⟨fronts.1, fronts.2, sameFraction, exponents.1, exponents.2⟩

/-- Without the zeros at the end of its exponent the text denotes another
number. -/
theorem not_trimmedAs_cutText
    (someFraction : numeral.fraction ≠ [])
    (noZeros : numeral.keptFraction = numeral.fraction)
    {count : Nat}
    (isExponent : numeral.exponent = numeral.exponent.rdropWhile (· = '0') ++
      List.replicate (count + 1) '0') :
    ¬ numeral.TrimmedAs numeral.cutText := by
  rintro ⟨trimmed, isText, sameValue, -⟩
  obtain ⟨_, _, noZero⟩ := exists_zeros numeral.exponent
  have keptDigits : ∀ digit ∈ numeral.exponent.rdropWhile (· = '0'),
      digit.isDigit = true := fun digit member =>
    numeral.exponentDigits digit ((List.rdropWhile_prefix _ _).subset member)
  have isMarked : numeral.marker ≠ [] := by
    intro none
    have noExponent := numeral.exponentIff.mpr none
    rw [isExponent] at noExponent
    simp at noExponent
  obtain ⟨sameSign, sameWhole, sameFraction, sameExponentSign, sameExponent⟩ :=
    parts_of_text someFraction isMarked keptDigits isText
  have keptNotNil : numeral.exponent.rdropWhile (· = '0') ≠ [] := by
    intro none
    rw [none] at sameExponent
    have noMarker := trimmed.exponentIff.mp sameExponent
    have sameLength := congrArg List.length isText
    rw [text, exponentPart, cutText, front, front, noMarker, sameExponent,
      sameExponentSign, sameSign, sameWhole, sameFraction, none] at sameLength
    have some := List.length_pos_of_ne_nil isMarked
    simp only [List.length_append, List.length_nil] at sameLength
    omega
  have keptPos := numberOf_pos keptDigits keptNotNil noZero
  have larger : numberOf (numeral.exponent.rdropWhile (· = '0')) <
      numberOf numeral.exponent := by
    conv_rhs => rw [isExponent, numberOf_zeros]
    have power : 1 < 10 ^ (count + 1) :=
      Nat.one_lt_pow (Nat.succ_ne_zero count) (by decide)
    exact (Nat.lt_mul_iff_one_lt_right keptPos).mpr power
  have mantissaPos : 0 < numberOf (numeral.whole ++ numeral.fraction) := by
    apply numberOf_pos
    · rw [List.forall_mem_append]
      exact ⟨numeral.wholeDigits, numeral.fractionDigits⟩
    · simp [someFraction]
    · rw [List.getLast?_append_of_ne_nil _ someFraction, ← noZeros]
      exact keptFraction_noZero
  rw [value, value, sameSign, sameWhole, sameFraction] at sameValue
  have signNonzero : (if numeral.sign = ['-'] then (-1 : Rat) else 1) ≠ 0 := by
    split <;> decide
  have samePower := mul_left_cancel₀ (mul_ne_zero signNonzero
    (Nat.cast_ne_zero.mpr (Nat.ne_of_gt mantissaPos))) sameValue
  have powers := zpow_right_injective₀ (by decide : (0 : Rat) < 10) (by decide)
    samePower
  rw [sub_left_inj, power, power, sameExponentSign, sameExponent] at powers
  split at powers
  · omega
  · omega

/-! ## When trimming is right -/

theorem trimmedAs_trim : numeral.TrimmedAs numeral.trim.text :=
  ⟨numeral.trim, rfl, value_trim, keptFraction_noZero⟩

/-- A zero at the end of the exponent is lost where the fraction has none. -/
theorem not_trimsRight_of_zeroLast
    (someFraction : numeral.fraction ≠ [])
    (noZeros : numeral.keptFraction = numeral.fraction)
    (zeroLast : numeral.exponent.getLast? = some '0') :
    ¬ numeral.TrimsRight := by
  rintro ⟨result, isResult, trimmed, -⟩
  obtain ⟨count, isExponent, cuts⟩ :=
    removePrependedZeros_exponent someFraction noZeros zeroLast
  rw [cuts, Option.some_inj] at isResult
  rw [← isResult] at trimmed
  exact not_trimmedAs_cutText someFraction noZeros isExponent trimmed

/-- Trimming is right exactly without an exponent or with a safe one. -/
theorem trimsRight_iff
    (someFraction : numeral.fraction ≠ []) :
    numeral.TrimsRight ↔ numeral.exponent = [] ∨ numeral.ExponentIsSafe := by
  have again : numeral.exponent = [] ∨ numeral.keptFraction = [] ∨
      numeral.exponent.getLast? ≠ some '0' →
        nf_RemovePrependedZeros numeral.trim.text = some numeral.trim.text := by
    intro kept
    apply removePrependedZeros_same trim_keptFraction
    rcases kept with none | none | noZero
    · right
      change numeral.exponent.getLast? ≠ some '0'
      rw [none]
      exact (Option.some_ne_none '0').symm
    · exact .inl none
    · exact .inr noZero
  by_cases noZeros : numeral.keptFraction = numeral.fraction
  · have isTrim : numeral.trim.text = numeral.text := by
      rw [text, text]
      exact congrArg (fun fraction => numeral.front ++
        (pointed fraction ++ numeral.exponentPart)) noZeros
    have keptSome : numeral.keptFraction ≠ [] := noZeros ▸ someFraction
    by_cases zeroLast : numeral.exponent.getLast? = some '0'
    · apply iff_of_false
      · exact not_trimsRight_of_zeroLast someFraction noZeros zeroLast
      · rintro (none | safe)
        · rw [none] at zeroLast
          cases zeroLast
        · exact safe.1.elim keptSome (fun noZero => noZero zeroLast)
    · apply iff_of_true
      · have kept := again (.inr (.inr zeroLast))
        rw [isTrim] at kept
        exact ⟨numeral.text, kept, isTrim ▸ trimmedAs_trim, kept⟩
      · exact .inr ⟨.inr zeroLast, .inl noZeros⟩
  · have removes := removePrependedZeros_zeros noZeros
    constructor
    · rintro ⟨result, isResult, -, isKept⟩
      rw [removes] at isResult
      split at isResult
      next fits =>
        rw [or_iff_not_imp_left]
        intro isMarked
        refine ⟨?_, .inr (fits.resolve_right isMarked)⟩
        by_contra unsafe_
        obtain ⟨someKept, zeroLast⟩ := not_or.mp unsafe_
        rw [← Option.some.inj isResult] at isKept
        obtain ⟨count, isExponent, cuts⟩ :=
          @removePrependedZeros_exponent numeral.trim someKept
            trim_keptFraction (not_not.mp zeroLast)
        rw [cuts, Option.some_inj] at isKept
        have longer := text_eq_cutText isExponent
        rw [isKept, List.self_eq_append_right] at longer
        cases longer
      next => cases isResult
    · intro safe
      refine ⟨numeral.trim.text, ?_, trimmedAs_trim, ?_⟩
      · rw [removes, if_pos]
        rcases safe with none | safe
        · exact .inr none
        · exact .inl (safe.2.resolve_left noZeros)
      · rcases safe with none | safe
        · exact again (.inl none)
        · exact again (.inr safe.1)

/-- `"8.0000E-12"` -/
def eightTrillionths : FloatNumeral where
  sign := []
  isSign := List.mem_cons_self
  whole := ['8']
  wholeNotEmpty := List.cons_ne_nil _ _
  wholeDigits := List.all_eq_true.mp rfl
  fraction := List.replicate 4 '0'
  fractionDigits := List.all_eq_true.mp rfl
  marker := ['E']
  isMarker := .inr (.inr rfl)
  exponentSign := ['-']
  isExponentSign := List.mem_cons_of_mem _ List.mem_cons_self
  exponent := ['1', '2']
  exponentDigits := List.all_eq_true.mp rfl
  exponentIff := by simp
  signIsMarked := nofun

theorem trimsRight_iff_eight : eightTrillionths.TrimsRight :=
  (trimsRight_iff (by decide)).mpr
    (.inr ⟨.inl rfl, .inr (by decide)⟩)

/-- `"1.5E10"` -/
def fifteenBillions : FloatNumeral where
  sign := []
  isSign := List.mem_cons_self
  whole := ['1']
  wholeNotEmpty := List.cons_ne_nil _ _
  wholeDigits := List.all_eq_true.mp rfl
  fraction := ['5']
  fractionDigits := List.all_eq_true.mp rfl
  marker := ['E']
  isMarker := .inr (.inr rfl)
  exponentSign := []
  isExponentSign := List.mem_cons_self
  exponent := ['1', '0']
  exponentDigits := List.all_eq_true.mp rfl
  exponentIff := by simp
  signIsMarked := fun _ => rfl

theorem trimsRight_losesExponent :
    ¬ ∀ numeral : FloatNumeral,
      numeral.fraction ≠ [] → numeral.TrimsRight := by
  intro right
  exact not_trimsRight_of_zeroLast (List.cons_ne_nil _ _) rfl rfl
    (right fifteenBillions (List.cons_ne_nil _ _))

end FloatNumeral

end Convert

end NanoClr
