import NanoClr.Convert.Base64

/-!
# Conversion to base 64

The encoder writes the encoding of its source, and the lines of a text are
copied one after the other as long as their number fits into a byte.
-/

namespace NanoClr

namespace Convert

/-- The text that a conversion is to return. -/
def encodedText (octets : List UInt8) (insertLineBreaks : Bool) : List UInt8 :=
  let text := encode64 letter equalsSign octets
  if insertLineBreaks then withLineBreaks 76 [0x0D, 0x0A] text else text

/-! ## The encoder -/

theorem quadruple_eq
    {a b c : Nat}
    (first : a < 256)
    (second : b < 256)
    (third : c < 256) :
    quadruple a b c =
      [letter (a / 4), letter (a % 4 * 16 + b / 16),
        letter (b % 16 * 4 + c / 64), letter (c % 64)] := by
  have mask : ∀ number : Nat, number &&& 0x3F = number % 64 :=
    fun number => Nat.and_two_pow_sub_one_eq_mod number 6
  have one : (a * 2 ^ 16 + b * 2 ^ 8 + c) / 2 ^ 18 % 64 = a / 4 := by omega
  have two : (a * 2 ^ 16 + b * 2 ^ 8 + c) / 2 ^ 12 % 64 =
      a % 4 * 16 + b / 16 := by omega
  have three : (a * 2 ^ 16 + b * 2 ^ 8 + c) / 2 ^ 6 % 64 =
      b % 16 * 4 + c / 64 := by omega
  have four : (a * 2 ^ 16 + b * 2 ^ 8 + c) / 2 ^ 0 % 64 = c % 64 := by omega
  simp only [quadruple, mask, Nat.shiftLeft_eq, Nat.shiftRight_eq_div_pow,
    Nat.reduceMul, one, two, three, four]

theorem length_encodeTriples :
    ∀ src : List UInt8, (encodeTriples src).length = 4 * ((src.length + 2) / 3)
  | [] => rfl
  | [_] => by simp [encodeTriples, quadruple]
  | [_, _] => by simp [encodeTriples, quadruple]
  | a :: b :: c :: rest => by
      rw [encodeTriples, List.length_append, length_encodeTriples rest]
      simp only [quadruple, List.length_cons, List.length_nil]
      omega

/-- The number of the characters that are written over. -/
def paddingCount (src : List UInt8) : Nat := mod_table.getD (src.length % 3) 0

theorem paddingCount_cons
    {a b c : UInt8}
    {rest : List UInt8} :
    paddingCount (a :: b :: c :: rest) = paddingCount rest := by
  have same : (a :: b :: c :: rest).length % 3 = rest.length % 3 := by
    simp only [List.length_cons]
    omega
  rw [paddingCount, same, paddingCount]

theorem paddingCount_le (src : List UInt8) :
    paddingCount src ≤ (encodeTriples src).length := by
  rw [length_encodeTriples, paddingCount]
  have small := Nat.mod_lt src.length (by decide : 0 < 3)
  generalize remainder : src.length % 3 = rest at small
  match rest with
  | 0 => exact Nat.zero_le _
  | 1 =>
      show 2 ≤ _
      omega
  | 2 =>
      show 1 ≤ _
      omega

/-- The encoding is that of the octets with zeros behind them, padded. -/
theorem encode64_eq_padded :
    ∀ src : List UInt8, encode64 letter equalsSign src =
      (encodeTriples src).take ((encodeTriples src).length - paddingCount src) ++
        List.replicate (paddingCount src) equalsSign
  | [] => rfl
  | [a] => by
      have byte := a.toNat_lt
      rw [encode64, encodeTriples, quadruple_eq byte (by decide) (by decide)]
      rfl
  | [a, b] => by
      have byte := a.toNat_lt
      have next := b.toNat_lt
      rw [encode64, encodeTriples, quadruple_eq byte next (by decide)]
      rfl
  | a :: b :: c :: rest => by
      have inductionHypothesis := encode64_eq_padded rest
      have fits := paddingCount_le rest
      rw [encode64, encodeTriples, quadruple_eq a.toNat_lt b.toNat_lt c.toNat_lt,
        paddingCount_cons, List.length_append, Nat.add_sub_assoc fits,
        List.take_length_add_append, List.append_assoc, ← inductionHypothesis]
      rfl

theorem writePadding_eq
    {dst : Nat → UInt8}
    {olen count place : Nat}
    (fits : count ≤ olen) :
    writePadding dst olen count place =
      if olen - count ≤ place ∧ place < olen then equalsSign else dst place := by
  induction count with
  | zero =>
      rw [writePadding, if_neg]
      omega
  | succ count inductionHypothesis =>
      rw [writePadding]
      by_cases here : place = olen - 1 - count
      · rw [here, Function.update_self, if_pos]
        omega
      · rw [Function.update_of_ne here, inductionHypothesis (by omega)]
        congr 1
        apply propext
        omega

/-- What the encoder writes is the encoding, with a zero behind it. -/
theorem isString_encode
    (dst : Nat → UInt8)
    (src : List UInt8) :
    Holds (mbedtls_base64_encode dst (4 * ((src.length + 2) / 3)) src) 0
        (encode64 letter equalsSign src) ∧
      mbedtls_base64_encode dst (4 * ((src.length + 2) / 3)) src
        (4 * ((src.length + 2) / 3)) = 0 := by
  have size := length_encodeTriples src
  have fits := paddingCount_le src
  rw [← size]
  refine ⟨?_, Function.update_self _ _ _⟩
  rw [holds_iff_getElem?]
  intro index value isValue
  have inside : index < (encodeTriples src).length := by
    rw [size, ← length_encode64]
    exact (List.getElem?_eq_some_iff.mp isValue).1
  rw [Nat.zero_add, mbedtls_base64_encode,
    Function.update_of_ne (Nat.ne_of_lt inside)]
  show writePadding _ _ (paddingCount src) index = value
  rw [writePadding_eq fits]
  rw [encode64_eq_padded, List.getElem?_append, List.length_take,
    Nat.min_eq_left (Nat.sub_le _ _)] at isValue
  split at isValue
  next inFront =>
    rw [List.getElem?_take_of_lt inFront] at isValue
    rw [if_neg (by omega)]
    have written : Holds (writeCells dst 0 (encodeTriples src)) 0
        (encodeTriples src) := holds_writeCells
    have here := holds_iff_getElem?.mp written index value isValue
    rwa [Nat.zero_add] at here
  next behind =>
    rw [if_pos ⟨Nat.le_of_not_lt behind, inside⟩]
    exact (List.eq_of_mem_replicate (List.mem_of_getElem? isValue)).symm

/-! ## Lines -/

/-- The lines that are copied, as long as the iterations are enough and the
offset fits. -/
theorem copyLines_spec
    (outArray : Nat → UInt8)
    (left i outputLength : Nat)
    (lines : Nat → UInt8)
    (enough : left = outputLength / 76)
    (fits : 78 * i + outputLength + 2 * left < 2 ^ 16) :
    let later := copyLines outArray (left + 1) i outputLength (78 * i) lines
    Holds later (78 * i) (breakLines 76 [0x0D, 0x0A] left
        (cellsAt outArray (76 * i) outputLength)) ∧
      later (78 * i + outputLength + 2 * left) = 0 ∧
      ∀ place < 78 * i, later place = lines place := by
  induction left generalizing i outputLength lines with
  | zero =>
      have short : outputLength < 76 := by omega
      have source : 78 * i - i * 2 = 76 * i := by omega
      have count : outputLength % 2 ^ 8 = outputLength := by omega
      have offset : (78 * i + outputLength) % 2 ^ 16 = 78 * i + outputLength := by
        omega
      intro later
      have later_eq : later = Function.update (writeCells lines (78 * i)
          (cellsAt outArray (76 * i) outputLength)) (78 * i + outputLength) 0 := by
        simp only [later, copyLines, if_neg (show ¬outputLength > 76 by omega),
          if_neg (show ¬outputLength ≥ 76 by omega), source, count, offset]
      have written : Holds (writeCells lines (78 * i)
          (cellsAt outArray (76 * i) outputLength)) (78 * i)
            (cellsAt outArray (76 * i) outputLength) := holds_writeCells
      rw [later_eq]
      refine ⟨?_, ?_, ?_⟩
      · rw [breakLines, holds_iff_getElem?]
        intro index value isValue
        have inside := (List.getElem?_eq_some_iff.mp isValue).1
        rw [length_cellsAt] at inside
        rw [Function.update_of_ne (by omega)]
        exact holds_iff_getElem?.mp written index value isValue
      · exact Function.update_self _ _ _
      · intro place below
        rw [Function.update_of_ne (by omega), writeCells_outside (.inl below)]
  | succ left inductionHypothesis =>
      have long : outputLength ≥ 76 := by omega
      have source : 78 * i - i * 2 = 76 * i := by omega
      have count : (if outputLength > 76 then 76 else outputLength) % 2 ^ 8 = 76 := by
        split <;> omega
      have offset : (78 * i + 76 + 2) % 2 ^ 16 = 78 * (i + 1) := by omega
      intro later
      generalize written_eq : Function.update (Function.update
        (writeCells lines (78 * i) (cellsAt outArray (76 * i) 76))
          (76 + 78 * i) 0x0D) (76 + 78 * i + 1) 0x0A = written
      have later_eq : later = copyLines outArray (left + 1) (i + 1)
          (outputLength - 76) (78 * (i + 1)) written := by
        simp only [later]
        rw [copyLines]
        simp only [count, source, if_pos long, offset, written_eq]
      have whole : written = writeCells lines (78 * i)
          (cellsAt outArray (76 * i) 76 ++ [0x0D, 0x0A]) := by
        rw [writeCells_append, length_cellsAt, ← written_eq, Nat.add_comm 76]
        rfl
      have size : (cellsAt outArray (76 * i) 76 ++ [0x0D, 0x0A]).length = 78 := by
        rw [List.length_append, length_cellsAt]
        rfl
      obtain ⟨held, ended, kept⟩ :=
        inductionHypothesis (i + 1) (outputLength - 76) written (by omega)
          (by omega)
      rw [← later_eq] at held ended kept
      have cells : cellsAt outArray (76 * i) outputLength =
          cellsAt outArray (76 * i) 76 ++
            cellsAt outArray (76 * (i + 1)) (outputLength - 76) := by
        have parts : cellsAt outArray (76 * i) (76 + (outputLength - 76)) = _ :=
          cellsAt_add 76 (outputLength - 76)
        rwa [Nat.add_sub_cancel' long] at parts
      have front : Holds later (78 * i)
          (cellsAt outArray (76 * i) 76 ++ [0x0D, 0x0A]) := by
        have here : Holds written (78 * i)
            (cellsAt outArray (76 * i) 76 ++ [0x0D, 0x0A]) := by
          rw [whole]
          exact holds_writeCells
        rw [holds_iff_getElem?] at here ⊢
        intro index value isValue
        have inside := (List.getElem?_eq_some_iff.mp isValue).1
        rw [size] at inside
        rw [kept _ (by omega)]
        exact here index value isValue
      refine ⟨?_, ?_, ?_⟩
      · rw [cells, breakLines, List.take_left' (length_cellsAt 76),
          List.drop_left' (length_cellsAt 76), holds_append, size]
        exact ⟨front, held⟩
      · rw [← ended]
        congr 1
        omega
      · intro place below
        rw [kept place (by omega), whole, writeCells_outside (.inl below)]

/-- Iterations that all copy a full line write no more than these lines. -/
theorem copyLines_full
    (outArray : Nat → UInt8)
    (left i outputLength : Nat)
    {place : Nat}
    (lines : Nat → UInt8)
    (full : 76 * left ≤ outputLength)
    (fits : 78 * (i + left) < 2 ^ 16)
    (behind : 78 * (i + left) ≤ place) :
    copyLines outArray left i outputLength (78 * i) lines place =
      lines place := by
  induction left generalizing i outputLength lines with
  | zero => rfl
  | succ left inductionHypothesis =>
      have long : outputLength ≥ 76 := by omega
      have count : (if outputLength > 76 then 76 else outputLength) % 2 ^ 8 = 76 := by
        split <;> omega
      have offset : (78 * i + 76 + 2) % 2 ^ 16 = 78 * (i + 1) := by omega
      rw [copyLines]
      simp only [count, if_pos long, offset]
      rw [inductionHypothesis (i + 1) (outputLength - 76) _ (by omega)
          (by omega) (by omega),
        Function.update_of_ne (by omega), Function.update_of_ne (by omega),
        writeCells_outside]
      rw [length_cellsAt]
      omega

/-! ## The conversion -/

theorem letter_ne
    {index : Nat}
    (inside : index < 64) :
    letter index ≠ 0 ∧ letter index ≠ equalsSign := by
  revert index
  decide

theorem encodedText_ne_zero
    (octets : List UInt8)
    (insertLineBreaks : Bool) :
    ∀ character ∈ encodedText octets insertLineBreaks, character ≠ 0 := by
  have text : ∀ character ∈ encode64 letter equalsSign octets, character ≠ 0 := by
    apply forall_mem_encode64
    · exact fun number less => (letter_ne less).1
    · decide
  rw [encodedText]
  cases insertLineBreaks with
  | false => exact text
  | true =>
      apply forall_mem_breakLines _ _ text
      simp

variable
  {inArray : List UInt8}
  {offset length : Nat}

/-- The conversion returns the encoding of the selected bytes, whatever the
allocated memory holds. -/
def EncodesRight
    (inArray : List UInt8)
    (offset length : Nat)
    (insertLineBreaks : Bool) : Prop :=
  ∀ outBlock lineBlock,
    IsString
      (ToBase64String outBlock lineBlock inArray offset length insertLineBreaks)
      (encodedText ((inArray.drop offset).take length) insertLineBreaks)

theorem encodesRight_iff
    (inside : offset + length ≤ inArray.length)
    (insertLineBreaks : Bool) :
    EncodesRight inArray offset length insertLineBreaks ↔
      (insertLineBreaks = true → length ≤ 14589) := by
  have selected : ((inArray.drop offset).take length).length = length := by
    rw [List.length_take, List.length_drop]
    omega
  have noZero := encodedText_ne_zero ((inArray.drop offset).take length)
  unfold EncodesRight ToBase64String
  generalize (inArray.drop offset).take length = src at selected noZero ⊢
  subst selected
  cases insertLineBreaks with
  | false =>
      apply iff_of_true
      · intro outBlock lineBlock
        obtain ⟨held, ended⟩ := isString_encode outBlock src
        refine ⟨held, ?_, noZero false⟩
        rw [encodedText]
        simp only [Bool.false_eq_true, if_false, length_encode64]
        exact ended
      · exact nofun
  | true =>
      have size : (encode64 letter equalsSign src).length =
          4 * ((src.length + 2) / 3) := length_encode64 src
      have text_eq : encodedText src true = breakLines 76 [0x0D, 0x0A]
          (4 * ((src.length + 2) / 3) / 76) (encode64 letter equalsSign src) := by
        rw [encodedText, if_pos rfl, withLineBreaks, size]
      have textLength : (encodedText src true).length =
          4 * ((src.length + 2) / 3) +
            2 * (4 * ((src.length + 2) / 3) / 76) := by
        rw [text_eq, length_breakLines, size, Nat.mul_comm 2]
        · rfl
        · rw [size]
          exact Nat.div_mul_le_self _ _
      simp only [if_true, forall_const]
      constructor
      · intro right
        by_contra long
        have counted : 256 ≤ 4 * ((src.length + 2) / 3) / 76 := by omega
        have string := right (fun _ => 0) (fun _ => 0)
        generalize outArray_eq : mbedtls_base64_encode _ _ src = outArray at string
        have stale := copyLines_full outArray
          (4 * ((src.length + 2) / 3) / 76 % 2 ^ 8 + 1) 0
          (4 * ((src.length + 2) / 3)) (fun _ => 0) (by omega) (by omega)
          (Nat.le_refl _)
        rw [Nat.mul_zero, Nat.zero_add] at stale
        have place : 78 * (4 * ((src.length + 2) / 3) / 76 % 2 ^ 8 + 1) <
            (encodedText src true).length := by omega
        have isCharacter := List.getElem?_eq_getElem place
        have here := holds_iff_getElem?.mp string.1 _ _ isCharacter
        rw [Nat.zero_add, stale] at here
        exact noZero true _ (List.getElem_mem place) here.symm
      · intro short outBlock lineBlock
        have counted : 4 * ((src.length + 2) / 3) / 76 % 2 ^ 8 =
            4 * ((src.length + 2) / 3) / 76 := by omega
        obtain ⟨held, -⟩ := isString_encode outBlock src
        generalize mbedtls_base64_encode outBlock _ src = outArray at held ⊢
        rw [Holds, size] at held
        obtain ⟨copied, ended, -⟩ := copyLines_spec outArray
          (4 * ((src.length + 2) / 3) / 76) 0 (4 * ((src.length + 2) / 3))
          lineBlock rfl (by omega)
        rw [Nat.mul_zero, Nat.zero_add] at ended
        rw [Nat.mul_zero, held, ← text_eq] at copied
        rw [counted]
        refine ⟨copied, ?_, noZero true⟩
        rw [textLength]
        exact ended

end Convert

end NanoClr
