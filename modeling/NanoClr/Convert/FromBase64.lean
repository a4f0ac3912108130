import NanoClr.Convert.ToBase64

/-!
# Conversion from base 64

The decoder reads back what the encoder writes. The conversion in front of it
reads a part of its argument only when the array is short enough, writes over
it, and has no means to reject a text.
-/

namespace NanoClr

namespace Convert

/-! ## The decoder -/

theorem letter_injective
    {left right : Nat}
    (leftInside : left < 64)
    (rightInside : right < 64)
    (same : letter left = letter right) :
    left = right := by
  have distinct : base64_enc_map.Nodup := by decide +kernel
  have size : base64_enc_map.length = 64 := rfl
  have here : ∀ index : Nat, (inside : index < base64_enc_map.length) →
      letter index = base64_enc_map[index] := by
    intro index inside
    rw [letter, List.getD_eq_getElem?_getD, List.getElem?_eq_getElem inside]
    rfl
  rw [here left (by omega), here right (by omega)] at same
  exact (List.Nodup.getElem_inj_iff distinct).mp same

theorem build_decoding_table_letter
    (tableBlock : UInt8 → UInt8)
    {count index : Nat}
    (fits : count ≤ 64)
    (inside : index < count) :
    build_decoding_table tableBlock count (letter index) =
      UInt8.ofNat index := by
  induction count with
  | zero => cases inside
  | succ count inductionHypothesis =>
      rw [build_decoding_table]
      by_cases last : index = count
      · rw [last, Function.update_self]
      · rw [Function.update_of_ne, inductionHypothesis (by omega) (by omega)]
        intro same
        exact last (letter_injective (by omega) (by omega) same)

theorem sextet_letter
    (tableBlock : UInt8 → UInt8)
    {index : Nat}
    (inside : index < 64) :
    sextet (build_decoding_table tableBlock 64) (letter index) = index := by
  rw [sextet, if_neg (letter_ne inside).2,
    build_decoding_table_letter tableBlock (Nat.le_refl 64) inside,
    UInt8.toNat_ofNat', Nat.mod_eq_of_lt (by omega)]

theorem sextet_equalsSign
    (decoding_table : UInt8 → UInt8) :
    sextet decoding_table equalsSign = 0 :=
  if_pos rfl

theorem writeByte_inside
    {olen place : Nat}
    {dst : Nat → UInt8}
    (inside : place < olen)
    (byte : UInt8) :
    writeByte olen (dst, place) byte.toNat =
      (Function.update dst place byte, place + 1) := by
  rw [writeByte, if_pos inside, UInt8.ofNat_toNat]

theorem writeByte_outside
    {olen : Nat}
    {dst : Nat → UInt8}
    (byte : Nat) :
    writeByte olen (dst, olen) byte = (dst, olen) :=
  if_neg (Nat.lt_irrefl olen)

/-- The three bytes of a number of 24 bits. -/
theorem bytes_of_triple
    {a b c : Nat}
    (first : a < 256)
    (second : b < 256)
    (third : c < 256) :
    let triple := (a / 4) <<< (3 * 6) + (a % 4 * 16 + b / 16) <<< (2 * 6) +
      (b % 16 * 4 + c / 64) <<< (1 * 6) + (c % 64) <<< (0 * 6)
    triple >>> (2 * 8) &&& 0xFF = a ∧ triple >>> (1 * 8) &&& 0xFF = b ∧
      triple >>> (0 * 8) &&& 0xFF = c := by
  have mask : ∀ number : Nat, number &&& 0xFF = number % 256 :=
    fun number => Nat.and_two_pow_sub_one_eq_mod number 8
  simp only [mask, Nat.shiftLeft_eq, Nat.shiftRight_eq_div_pow, Nat.reduceMul]
  refine ⟨?_, ?_, ?_⟩ <;> omega

/-- One round of the loop, from the four numbers of its characters. -/
theorem decodeQuadruples_cons
    {decoding_table : UInt8 → UInt8}
    {olen x y z : Nat}
    {a b c d : UInt8}
    {rest : List UInt8}
    {dst : (Nat → UInt8) × Nat}
    (first : x < 256)
    (second : y < 256)
    (third : z < 256)
    (is_a : sextet decoding_table a = x / 4)
    (is_b : sextet decoding_table b = x % 4 * 16 + y / 16)
    (is_c : sextet decoding_table c = y % 16 * 4 + z / 64)
    (is_d : sextet decoding_table d = z % 64) :
    decodeQuadruples decoding_table olen (a :: b :: c :: d :: rest) dst =
      decodeQuadruples decoding_table olen rest
        (writeByte olen (writeByte olen (writeByte olen dst x) y) z) := by
  obtain ⟨is_x, is_y, is_z⟩ := bytes_of_triple first second third
  rw [decodeQuadruples]
  simp only [is_a, is_b, is_c, is_d, is_x, is_y, is_z]

/-- The decoder writes the octets that were encoded. -/
theorem decodeQuadruples_encode
    (tableBlock : UInt8 → UInt8) :
    ∀ (src : List UInt8) (dst : Nat → UInt8) (place : Nat),
      (decodeQuadruples (build_decoding_table tableBlock 64)
        (place + src.length) (encode64 letter equalsSign src) (dst, place)).1 =
        writeCells dst place src
  | [], dst, place => rfl
  | [a], dst, place => by
      have byte := a.toNat_lt
      have is_b := sextet_letter tableBlock
        (show a.toNat % 4 * 16 < 64 by omega)
      rw [encode64, decodeQuadruples_cons byte (by decide : 0 < 256)
        (by decide : 0 < 256) (sextet_letter tableBlock (by omega)) is_b
        (sextet_equalsSign _) (sextet_equalsSign _), List.length_singleton,
        writeByte_inside (Nat.lt_succ_self place), writeByte_outside,
        writeByte_outside]
      rfl
  | [a, b], dst, place => by
      have byte := a.toNat_lt
      have next := b.toNat_lt
      have is_c := sextet_letter tableBlock
        (show b.toNat % 16 * 4 < 64 by omega)
      rw [encode64, decodeQuadruples_cons byte next (by decide : 0 < 256)
        (sextet_letter tableBlock (by omega))
        (sextet_letter tableBlock (by omega)) is_c (sextet_equalsSign _)]
      simp only [List.length_cons, List.length_nil, Nat.zero_add,
        writeByte_inside (show place < place + (1 + 1) by omega),
        writeByte_inside (show place + 1 < place + (1 + 1) by omega)]
      rw [Nat.add_assoc place, writeByte_outside]
      rfl
  | a :: b :: c :: rest, dst, place => by
      have byte := a.toNat_lt
      have next := b.toNat_lt
      have last := c.toNat_lt
      have size : place + (a :: b :: c :: rest).length =
          place + 3 + rest.length := by
        simp only [List.length_cons]
        omega
      rw [encode64, decodeQuadruples_cons byte next last
        (sextet_letter tableBlock (by omega))
        (sextet_letter tableBlock (by omega))
        (sextet_letter tableBlock (by omega))
        (sextet_letter tableBlock (by omega)), size,
        writeByte_inside (show place < place + 3 + rest.length by omega),
        writeByte_inside (show place + 1 < place + 3 + rest.length by omega),
        writeByte_inside
          (show place + 1 + 1 < place + 3 + rest.length by omega)]
      exact decodeQuadruples_encode tableBlock rest _ (place + 3)

theorem writeByte_kept
    {olen place byte : Nat}
    {kept : UInt8}
    {dst : (Nat → UInt8) × Nat}
    (before : place < dst.2 ∧ dst.1 place = kept) :
    place < (writeByte olen dst byte).2 ∧
      (writeByte olen dst byte).1 place = kept := by
  obtain ⟨behind, here⟩ := before
  rw [writeByte]
  split
  · refine ⟨Nat.lt_succ_of_lt behind, ?_⟩
    show Function.update dst.1 dst.2 _ place = kept
    rw [Function.update_of_ne (Nat.ne_of_lt behind)]
    exact here
  · exact ⟨behind, here⟩

/-- The decoder keeps what is in front of the place it writes to. -/
theorem decodeQuadruples_kept
    {decoding_table : UInt8 → UInt8}
    {olen place : Nat}
    {kept : UInt8} :
    ∀ (src : List UInt8) {dst : (Nat → UInt8) × Nat},
      place < dst.2 ∧ dst.1 place = kept →
        (decodeQuadruples decoding_table olen src dst).1 place = kept
  | [], _, before => before.2
  | [_], _, before => before.2
  | [_, _], _, before => before.2
  | [_, _, _], _, before => before.2
  | a :: b :: c :: d :: rest, dst, before => by
      rw [decodeQuadruples]
      exact decodeQuadruples_kept rest
        (writeByte_kept (writeByte_kept (writeByte_kept before)))

/-! ## The argument -/

theorem narrowCharacters_eq
    {memory : Int → UInt8}
    {count : Nat}
    {place : Int} :
    narrowCharacters memory count place =
      if 0 ≤ place ∧ place < count then memory (2 * place) else memory place := by
  induction count generalizing place with
  | zero =>
      rw [narrowCharacters, if_neg]
      omega
  | succ count inductionHypothesis =>
      rw [narrowCharacters]
      by_cases last : place = count
      · rw [last, Function.update_self, inductionHypothesis,
          if_neg (show ¬(0 ≤ (2 * count : Int) ∧ (2 * count : Int) < count) by
            omega),
          if_pos (show 0 ≤ (count : Int) ∧ (count : Int) < (count + 1 : Nat) by
            omega)]
      · rw [Function.update_of_ne last, inductionHypothesis]
        congr 1
        apply propext
        omega

theorem bytesAt_eq
    {memory : Int → UInt8}
    {address : Int}
    {text : List UInt8}
    (held : ∀ (index : Nat) (character : UInt8),
      text[index]? = some character → memory (address + index) = character) :
    bytesAt memory address text.length = text := by
  induction text generalizing address with
  | nil => rfl
  | cons first text inductionHypothesis =>
      have here := held 0 first rfl
      rw [Int.natCast_zero, Int.add_zero] at here
      rw [List.length_cons, bytesAt, here, inductionHypothesis]
      intro index character isCharacter
      rw [← held (index + 1) character isCharacter]
      congr 1
      omega

@[simp] theorem length_bytesAt
    {memory : Int → UInt8}
    {address : Int}
    (count : Nat) :
    (bytesAt memory address count).length = count := by
  induction count generalizing address with
  | zero => rfl
  | succ count inductionHypothesis =>
      rw [bytesAt, List.length_cons, inductionHypothesis]

/-- The characters of an encoding. -/
def encodedCharacters (octets : List UInt8) : List UInt16 :=
  (encode64 letter equalsSign octets).map UInt8.toUInt16

theorem length_encodedCharacters (octets : List UInt8) :
    (encodedCharacters octets).length = 4 * ((octets.length + 2) / 3) := by
  rw [encodedCharacters, List.length_map, length_encode64]

theorem toUInt16_bytes (character : UInt8) :
    character.toUInt16.toUInt8 = character ∧
      (character.toUInt16 >>> 8).toUInt8 = 0 := by
  constructor
  · simp
  · apply UInt8.toNat_inj.mp
    have byte := character.toNat_lt
    rw [UInt16.toNat_toUInt8, UInt16.toNat_shiftRight, UInt8.toNat_toUInt16,
      Nat.shiftRight_eq_div_pow]
    show character.toNat / 2 ^ 8 % 2 ^ 8 = 0
    omega

theorem stored_encoded
    {memory : Int → UInt8}
    {octets : List UInt8}
    (stored : Stored memory (encodedCharacters octets))
    {index : Nat}
    {character : UInt8}
    (isCharacter : (encode64 letter equalsSign octets)[index]? =
      some character) :
    memory (2 * index) = character ∧ memory (2 * index + 1) = 0 := by
  have isWide : (encodedCharacters octets)[index]? = some character.toUInt16 := by
    rw [encodedCharacters, List.getElem?_map, isCharacter]
    rfl
  obtain ⟨low, high⟩ := stored index character.toUInt16 isWide
  rw [low, high]
  exact toUInt16_bytes character

/-- Memory with an array of characters at address 0. -/
def arrayMemory (front : UInt8) (characters : List UInt16) (place : Int) :
    UInt8 :=
  if place < 0 then front
  else
    let character := characters.getD (place.toNat / 2) 0
    if place.toNat % 2 = 0 then character.toUInt8
    else (character >>> 8).toUInt8

theorem stored_arrayMemory
    (front : UInt8)
    (characters : List UInt16) :
    Stored (arrayMemory front characters) characters := by
  intro index character isCharacter
  have here : characters.getD index 0 = character := by
    rw [List.getD_eq_getElem?_getD, isCharacter]
    rfl
  have low : (2 * (index : Int)).toNat = 2 * index := by omega
  have high : (2 * (index : Int) + 1).toNat = 2 * index + 1 := by omega
  have half : (2 * index + 1) / 2 = index := by omega
  constructor
  · rw [arrayMemory, if_neg (by omega)]
    simp only [low, Nat.mul_div_cancel_left index Nat.two_pos, here,
      Nat.mul_mod_right, if_true]
  · rw [arrayMemory, if_neg (by omega)]
    simp only [high, half, here, Nat.mul_add_mod, Nat.reduceMod,
      Nat.one_ne_zero, if_false]

theorem arrayMemory_front
    {front : UInt8}
    {characters : List UInt16}
    {place : Int}
    (inFront : place < 0) :
    arrayMemory front characters place = front :=
  if_pos inFront

/-! ## The length of the result -/

/-- The length after the last two characters were looked at. -/
def resultLength (memory : Int → UInt8) (length : Nat) : Nat :=
  let narrowed := narrowCharacters memory (loopCount length)
  let outputLength := length / 4 * 3
  let outputLength :=
    if narrowed (loopCount length - 1) = equalsSign then decrement outputLength
    else outputLength
  if narrowed (loopCount length - 2) = equalsSign then decrement outputLength
  else outputLength

theorem result_eq
    (tableBlock : UInt8 → UInt8)
    (outBlock : Nat → UInt8)
    (memory : Int → UInt8)
    (length : Nat) :
    (FromBase64CharArray tableBlock outBlock memory length).result =
      if resultLength memory length < 2 ^ 31 then
        some (cellsAt (mbedtls_base64_decode tableBlock outBlock
          (resultLength memory length)
          (bytesAt (narrowCharacters memory (loopCount length))
            (loopCount length - length) length)) 0 (resultLength memory length))
      else none :=
  rfl

theorem decrement_pos
    {number : Nat}
    (positive : 0 < number)
    (fits : number < 2 ^ 32) :
    decrement number = number - 1 := by
  rw [decrement]
  omega

theorem decrement_zero : decrement 0 = 2 ^ 32 - 1 := rfl

theorem loopCount_of_small
    {length : Nat}
    (small : length < 2 ^ 15) :
    loopCount length = length := by
  have here : length % 2 ^ 16 = length := by omega
  simp only [loopCount, here, if_pos small]

theorem loopCount_le (length : Nat) : loopCount length < 2 ^ 15 := by
  simp only [loopCount]
  split <;> omega

/-! ## Reading an encoding -/

/-- The conversion returns the octets, whatever memory holds besides the
characters of their encoding. -/
def DecodesRight (octets : List UInt8) : Prop :=
  ∀ tableBlock outBlock memory,
    Stored memory (encodedCharacters octets) →
      (FromBase64CharArray tableBlock outBlock memory
        (encodedCharacters octets).length).result = some octets

section Short

variable
  {memory : Int → UInt8}
  {octets : List UInt8}

/-- In an array that is short enough the loop leaves the encoding at the start. -/
theorem narrowed_encoded
    (stored : Stored memory (encodedCharacters octets))
    {length : Nat}
    (isLength : 4 * ((octets.length + 2) / 3) = length)
    {index : Nat}
    {character : UInt8}
    (isCharacter : (encode64 letter equalsSign octets)[index]? =
      some character) :
    narrowCharacters memory length index = character := by
  have inside := (List.getElem?_eq_some_iff.mp isCharacter).1
  rw [length_encode64, isLength] at inside
  rw [narrowCharacters_eq, if_pos (by omega)]
  exact (stored_encoded stored isCharacter).1

theorem narrowed_eq_iff
    (stored : Stored memory (encodedCharacters octets))
    {length : Nat}
    (isLength : 4 * ((octets.length + 2) / 3) = length)
    {index : Nat}
    (inside : index < length)
    (character : UInt8) :
    narrowCharacters memory length index = character ↔
      (encode64 letter equalsSign octets)[index]? = some character := by
  have bound : index < (encode64 letter equalsSign octets).length := by
    rw [length_encode64, isLength]
    exact inside
  have isCharacter := List.getElem?_eq_getElem bound
  rw [narrowed_encoded stored isLength isCharacter, isCharacter,
    Option.some_inj]

theorem resultLength_encoded
    (stored : Stored memory (encodedCharacters octets))
    (notEmpty : octets ≠ [])
    (short : octets.length ≤ 24573) :
    resultLength memory (4 * ((octets.length + 2) / 3)) = octets.length := by
  have positive := List.length_pos_of_ne_nil notEmpty
  have notPad : ∀ number < 64, letter number ≠ equalsSign :=
    fun number less => (letter_ne less).2
  have isLast := encode64_last notPad octets notEmpty
  have isBeforeLast := encode64_beforeLast notPad octets notEmpty
  generalize isLength : 4 * ((octets.length + 2) / 3) = length at *
  have last : (length : Int) - 1 = (length - 1 : Nat) := by omega
  have beforeLast : (length : Int) - 2 = (length - 2 : Nat) := by omega
  rw [← narrowed_eq_iff stored isLength (by omega)] at isLast isBeforeLast
  simp only [resultLength, loopCount_of_small (show length < 2 ^ 15 by omega),
    last, beforeLast, isLast, isBeforeLast]
  by_cases whole : octets.length % 3 = 0
  · rw [if_neg (show ¬octets.length % 3 = 1 by omega),
      if_neg (not_not_intro whole)]
    omega
  · have one : decrement (length / 4 * 3) = length / 4 * 3 - 1 :=
      decrement_pos (by omega) (by omega)
    have two : decrement (length / 4 * 3 - 1) = length / 4 * 3 - 1 - 1 :=
      decrement_pos (by omega) (by omega)
    rw [if_pos whole, one, two]
    split <;> omega

theorem decodes_short
    (stored : Stored memory (encodedCharacters octets))
    (notEmpty : octets ≠ [])
    (short : octets.length ≤ 24573)
    (tableBlock : UInt8 → UInt8)
    (outBlock : Nat → UInt8) :
    (FromBase64CharArray tableBlock outBlock memory
      (encodedCharacters octets).length).result = some octets := by
  have isText : bytesAt (narrowCharacters memory
      (4 * ((octets.length + 2) / 3))) 0 (4 * ((octets.length + 2) / 3)) =
        encode64 letter equalsSign octets := by
    rw [← length_encode64]
    apply bytesAt_eq
    intro index character isCharacter
    rw [Int.zero_add, length_encode64]
    exact narrowed_encoded stored rfl isCharacter
  have written := decodeQuadruples_encode tableBlock octets outBlock 0
  rw [Nat.zero_add] at written
  have held : Holds (writeCells outBlock 0 octets) 0 octets := holds_writeCells
  rw [length_encodedCharacters, result_eq,
    resultLength_encoded stored notEmpty short, if_pos (by omega),
    loopCount_of_small (by omega), Int.sub_self, isText, mbedtls_base64_decode,
    if_neg (by rw [length_encode64]; omega), written]
  exact congrArg some held

end Short

/-! ## Arrays that are read elsewhere -/

/-- The three bytes of a number four times. -/
theorem bytes_of_same
    {index : Nat}
    (inside : index < 64) :
    index = (index * 4 + index / 16) / 4 ∧
      index = (index * 4 + index / 16) % 4 * 16 +
        (index % 16 * 16 + index / 4) / 16 ∧
      index = (index % 16 * 16 + index / 4) % 16 * 4 +
        (index % 4 * 64 + index) / 64 ∧
      index = (index % 4 * 64 + index) % 64 := by
  revert index
  decide

/-- The first byte that is read from four letters. -/
theorem first_written
    {tableBlock : UInt8 → UInt8}
    {outBlock : Nat → UInt8}
    {olen index : Nat}
    {rest : List UInt8}
    (inside : index < 64)
    (room : 0 < olen) :
    (decodeQuadruples (build_decoding_table tableBlock 64) olen
      (letter index :: letter index :: letter index :: letter index :: rest)
        (outBlock, 0)).1 0 = UInt8.ofNat (index * 4 + index / 16) := by
  obtain ⟨is_a, is_b, is_c, is_d⟩ := bytes_of_same inside
  have is_sextet := sextet_letter tableBlock inside
  rw [decodeQuadruples_cons (show index * 4 + index / 16 < 256 by omega)
    (show index % 16 * 16 + index / 4 < 256 by omega)
    (show index % 4 * 64 + index < 256 by omega)
    (is_sextet.trans is_a) (is_sextet.trans is_b) (is_sextet.trans is_c)
    (is_sextet.trans is_d)]
  apply decodeQuadruples_kept
  apply writeByte_kept
  apply writeByte_kept
  rw [writeByte, if_pos room]
  exact ⟨Nat.one_pos, Function.update_self 0 _ outBlock⟩

/-- The loop that copies does not write in front of the array. -/
theorem narrowed_front
    {front : UInt8}
    {characters : List UInt16}
    {count : Nat}
    {place : Int}
    (inFront : place < 0) :
    narrowCharacters (arrayMemory front characters) count place = front := by
  rw [narrowCharacters_eq, if_neg (by omega), arrayMemory_front inFront]

/-- From a long array the conversion reads what stands in front of it. -/
theorem result_long
    {tableBlock : UInt8 → UInt8}
    {outBlock : Nat → UInt8}
    {characters : List UInt16}
    {count index : Nat}
    {octets : List UInt8}
    (inside : index < 64)
    (long : 2 ^ 15 ≤ 4 * count)
    (notEmpty : octets ≠ [])
    (decoded : (FromBase64CharArray tableBlock outBlock
      (arrayMemory (letter index) characters) (4 * count)).result =
        some octets) :
    octets[0]? = some (UInt8.ofNat (index * 4 + index / 16)) := by
  have start := loopCount_le (4 * count)
  have away : (loopCount (4 * count) : Int) - (4 * count : Nat) + 3 < 0 := by
    simp only [loopCount]
    split <;> omega
  rw [result_eq] at decoded
  generalize resultLength _ _ = outputLength at decoded
  split at decoded
  · rw [Option.some_inj] at decoded
    have size := congrArg List.length decoded
    rw [length_cellsAt] at size
    have room : 0 < outputLength := by
      rw [size]
      exact List.length_pos_of_ne_nil notEmpty
    obtain ⟨rest, isRest⟩ : ∃ rest, bytesAt
        (narrowCharacters (arrayMemory (letter index) characters)
          (loopCount (4 * count))) (loopCount (4 * count) - (4 * count : Nat))
            (4 * count) =
          letter index :: letter index :: letter index :: letter index :: rest := by
      obtain ⟨left, isLeft⟩ : ∃ left, 4 * count = left + 1 + 1 + 1 + 1 :=
        ⟨4 * count - 4, by omega⟩
      rw [isLeft] at start away ⊢
      simp only [bytesAt]
      rw [narrowed_front (by omega), narrowed_front (by omega),
        narrowed_front (by omega), narrowed_front (by omega)]
      exact ⟨_, rfl⟩
    have whole : ¬(letter index :: letter index :: letter index ::
        letter index :: rest).length % 4 ≠ 0 := by
      rw [← isRest, length_bytesAt, Nat.mul_mod_right]
      exact not_not_intro rfl
    rw [isRest, mbedtls_base64_decode, if_neg whole, size] at decoded
    have isFirst := List.getElem?_eq_getElem (size ▸ room)
    have written := holds_iff_getElem?.mp decoded 0 _ isFirst
    rw [Nat.zero_add, first_written inside (size ▸ room)] at written
    rw [isFirst, written]
  · cases decoded

theorem decodesRight_iff
    {octets : List UInt8}
    (fits : 4 * ((octets.length + 2) / 3) < 2 ^ 31) :
    DecodesRight octets ↔ 0 < octets.length ∧ octets.length ≤ 24573 := by
  constructor
  · intro right
    have notEmpty : octets ≠ [] := by
      rintro rfl
      have decoded := right (fun _ => 0) (fun _ => 0) (arrayMemory equalsSign [])
        (stored_arrayMemory equalsSign [])
      cases decoded
    refine ⟨List.length_pos_of_ne_nil notEmpty, Nat.le_of_not_lt fun long => ?_⟩
    have decoded := fun index => right (fun _ => 0) (fun _ => 0)
      (arrayMemory (letter index) (encodedCharacters octets))
      (stored_arrayMemory _ _)
    simp only [length_encodedCharacters] at decoded
    have low := result_long (by decide : 0 < 64) (by omega) notEmpty (decoded 0)
    have high := result_long (by decide : 63 < 64) (by omega) notEmpty
      (decoded 63)
    rw [low] at high
    cases high
  · rintro ⟨positive, short⟩ tableBlock outBlock memory stored
    exact decodes_short stored (List.ne_nil_of_length_pos positive) short
      tableBlock outBlock

/-! ## The argument afterwards -/

/-- The conversion leaves the characters of an encoding as they are. -/
def LeavesArgument (octets : List UInt8) : Prop :=
  ∀ tableBlock outBlock memory,
    Stored memory (encodedCharacters octets) →
      Stored
        (FromBase64CharArray tableBlock outBlock memory
          (encodedCharacters octets).length).memory
        (encodedCharacters octets)

theorem encode64_ne_zero (octets : List UInt8) :
    ∀ character ∈ encode64 letter equalsSign octets, character ≠ 0 :=
  encodedText_ne_zero octets false

theorem leavesArgument_iff (octets : List UInt8) :
    LeavesArgument octets ↔
      loopCount (4 * ((octets.length + 2) / 3)) = 0 := by
  rw [← length_encodedCharacters]
  constructor
  · intro leaves
    by_contra runs
    have quarter : 4 ≤ loopCount (encodedCharacters octets).length := by
      rw [length_encodedCharacters] at runs ⊢
      simp only [loopCount] at runs ⊢
      split at runs <;> split <;> omega
    have size : loopCount (encodedCharacters octets).length ≤
        (encode64 letter equalsSign octets).length := by
      rw [← List.length_map UInt8.toUInt16, ← encodedCharacters]
      simp only [loopCount]
      split <;> omega
    have stored := stored_arrayMemory 0 (encodedCharacters octets)
    have later := leaves (fun _ => 0) (fun _ => 0) _ stored
    have isFirst := List.getElem?_eq_getElem
      (show 0 < (encode64 letter equalsSign octets).length by omega)
    have isSecond := List.getElem?_eq_getElem
      (show 1 < (encode64 letter equalsSign octets).length by omega)
    have kept : narrowCharacters (arrayMemory 0 (encodedCharacters octets))
        (loopCount (encodedCharacters octets).length) 1 = 0 :=
      (stored_encoded later isFirst).2
    rw [narrowCharacters_eq, if_pos (by omega)] at kept
    have wide := (stored_encoded stored isSecond).1
    exact encode64_ne_zero octets _ (List.getElem_mem _)
      (wide.symm.trans kept)
  · intro none tableBlock outBlock memory stored
    show Stored (narrowCharacters memory (loopCount _)) _
    rw [none]
    exact stored

/-! ## Texts that are no base 64 -/

/-- Letters and up to two characters of padding, in fours. -/
def ValidBase64 (characters : List UInt16) : Prop :=
  characters.length % 4 = 0 ∧
    ∃ letters count, count ≤ 2 ∧
      characters = letters ++ List.replicate count equalsSign.toUInt16 ∧
      ∀ character ∈ letters, ∃ octet ∈ base64_enc_map,
        character = octet.toUInt16

/-- The conversion ends with an exception. -/
def Rejects (characters : List UInt16) : Prop :=
  ∀ tableBlock outBlock memory,
    Stored memory characters →
      (FromBase64CharArray tableBlock outBlock memory characters.length).result =
        none

/-- The last two characters, as far as there are any, look like padding. -/
def PaddingAtEnd (characters : List UInt16) : Prop :=
  ∃ (index : Nat) (character : UInt16), characters[index]? = some character ∧
    characters.length ≤ index + 2 ∧ character.toUInt8 = equalsSign

theorem result_eq_none_iff
    {tableBlock : UInt8 → UInt8}
    {outBlock : Nat → UInt8}
    {memory : Int → UInt8}
    {length : Nat} :
    (FromBase64CharArray tableBlock outBlock memory length).result = none ↔
      2 ^ 31 ≤ resultLength memory length := by
  rw [result_eq]
  split
  next small => exact iff_of_false nofun (Nat.not_le_of_lt small)
  next large => exact iff_of_true rfl (Nat.le_of_not_lt large)

/-- The length falls below zero for a short text with padding only. -/
theorem resultLength_large_iff
    {memory : Int → UInt8}
    {length : Nat}
    (fits : length < 2 ^ 31) :
    2 ^ 31 ≤ resultLength memory length ↔
      length < 4 ∧
        (narrowCharacters memory length (length - 1) = equalsSign ∨
          narrowCharacters memory length (length - 2) = equalsSign) := by
  by_cases short : length < 4
  · have zero : length / 4 * 3 = 0 := by omega
    have less : decrement (2 ^ 32 - 1) = 2 ^ 32 - 2 := rfl
    rw [and_iff_right short]
    simp only [resultLength, loopCount_of_small (show length < 2 ^ 15 by omega),
      zero]
    by_cases last : narrowCharacters memory length (length - 1) = equalsSign
    · rw [if_pos last, decrement_zero, less]
      apply iff_of_true _ (.inl last)
      split <;> decide
    · rw [if_neg last, or_iff_right last, decrement_zero]
      split
      next beforeLast => exact iff_of_true (by decide) beforeLast
      next other => exact iff_of_false (by decide) other
  · apply iff_of_false _ (fun both => short both.1)
    have one : decrement (length / 4 * 3) = length / 4 * 3 - 1 :=
      decrement_pos (by omega) (by omega)
    have two : decrement (length / 4 * 3 - 1) = length / 4 * 3 - 1 - 1 :=
      decrement_pos (by omega) (by omega)
    simp only [resultLength, one]
    split <;> split
    · rw [two]
      omega
    · rw [one]
      omega
    · omega
    · omega

theorem rejects_iff
    {characters : List UInt16}
    (fits : characters.length < 2 ^ 31) :
    Rejects characters ↔ characters.length < 4 ∧ PaddingAtEnd characters := by
  simp only [Rejects, result_eq_none_iff, resultLength_large_iff fits]
  have low : ∀ {memory : Int → UInt8}, Stored memory characters →
      ∀ {index : Nat} {character : UInt16}, characters[index]? = some character →
        narrowCharacters memory characters.length index = character.toUInt8 := by
    intro memory stored index character isCharacter
    have inside := (List.getElem?_eq_some_iff.mp isCharacter).1
    rw [narrowCharacters_eq, if_pos (by omega)]
    exact (stored index character isCharacter).1
  constructor
  · intro rejects
    obtain ⟨short, padding⟩ := rejects (fun _ => 0) (fun _ => 0)
      (arrayMemory 0 characters) (stored_arrayMemory 0 characters)
    refine ⟨short, ?_⟩
    have fromPlace : ∀ back : Nat, 1 ≤ back → back ≤ 2 →
        narrowCharacters (arrayMemory 0 characters) characters.length
          (characters.length - back) = equalsSign → PaddingAtEnd characters := by
      intro back positive small isPadding
      by_cases inside : back ≤ characters.length
      · have place : (characters.length : Int) - back =
            (characters.length - back : Nat) := by omega
        have isCharacter := List.getElem?_eq_getElem
          (show characters.length - back < characters.length by omega)
        rw [place, low (stored_arrayMemory 0 characters) isCharacter]
          at isPadding
        exact ⟨_, _, isCharacter, by omega, isPadding⟩
      · rw [narrowed_front (by omega)] at isPadding
        cases isPadding
    exact padding.elim (fromPlace 1 (Nat.le_refl 1) (by decide))
      (fromPlace 2 (by decide) (Nat.le_refl 2))
  · rintro ⟨short, index, character, isCharacter, atEnd, isPadding⟩ _ _ memory
      stored
    refine ⟨short, ?_⟩
    have inside := (List.getElem?_eq_some_iff.mp isCharacter).1
    rw [← low stored isCharacter] at isPadding
    by_cases last : index + 1 = characters.length
    · left
      rw [← isPadding]
      congr 1
      omega
    · right
      rw [← isPadding]
      congr 1
      omega

/-! ## The round trip -/

section RoundTrip

variable
  {inArray : List UInt8}
  {offset length : Nat}
  {characters : List UInt16}

/-- When each part of the round trip holds: the text, the octets that are read
back, the argument, and the texts that are no base 64. -/
theorem base64_roundTrip_iff
    (inside : offset + length ≤ inArray.length)
    (insertLineBreaks : Bool)
    (encodingFits : 4 * ((length + 2) / 3) < 2 ^ 31)
    (fits : characters.length < 2 ^ 31) :
    (EncodesRight inArray offset length insertLineBreaks ↔
      (insertLineBreaks = true → length ≤ 14589)) ∧
    (DecodesRight ((inArray.drop offset).take length) ↔
      0 < length ∧ length ≤ 24573) ∧
    (LeavesArgument ((inArray.drop offset).take length) ↔
      loopCount (4 * ((length + 2) / 3)) = 0) ∧
    ((¬ValidBase64 characters → Rejects characters) ↔
      ValidBase64 characters ∨
        characters.length < 4 ∧ PaddingAtEnd characters) := by
  have selected : ((inArray.drop offset).take length).length = length := by
    rw [List.length_take, List.length_drop]
    omega
  refine ⟨encodesRight_iff inside insertLineBreaks, ?_, ?_, ?_⟩
  · rw [decodesRight_iff, selected]
    rw [selected]
    exact encodingFits
  · rw [leavesArgument_iff, selected]
  · rw [rejects_iff fits, or_iff_not_imp_left]

end RoundTrip

/-- Sixty bytes, of which 59 take nineteen triples, a padded rest and two
lines. -/
def sixtyBytes : List UInt8 :=
  (List.range 60).map UInt8.ofNat

/-- The bytes behind the first one are encoded with a line break and read back,
and a text of three characters with padding is rejected. -/
theorem base64_roundTrip_iff_twoLines :
    EncodesRight sixtyBytes 1 59 true ∧
      DecodesRight ((sixtyBytes.drop 1).take 59) ∧
      ¬LeavesArgument ((sixtyBytes.drop 1).take 59) ∧
      (¬ValidBase64 [0x21, 0x21, 0x3D] → Rejects [0x21, 0x21, 0x3D]) := by
  obtain ⟨encodes, decodes, leaves, rejects⟩ :=
    @base64_roundTrip_iff sixtyBytes 1 59 [0x21, 0x21, 0x3D] (by decide) true
      (by decide) (by decide)
  have notZero : loopCount (4 * ((59 + 2) / 3)) ≠ 0 := by decide
  refine ⟨encodes.mpr fun _ => by decide, decodes.mpr (by decide),
    fun left => notZero (leaves.mp left), rejects.mpr (.inr ⟨by decide, ?_⟩)⟩
  exact ⟨2, 0x3D, rfl, by decide, rfl⟩

/-- The loop that narrows the characters of one byte's encoding writes over
them, and a text without any letter is not rejected. -/
theorem base64_roundTrip_overwritten :
    ¬LeavesArgument [0x4D] ∧
      ¬ValidBase64 [0x21, 0x21, 0x21, 0x21] ∧
      ¬Rejects [0x21, 0x21, 0x21, 0x21] := by
  refine ⟨?_, ?_, ?_⟩
  · rw [leavesArgument_iff]
    decide
  · rintro ⟨-, letters, count, small, isText, all⟩
    cases letters with
    | nil =>
        have size := congrArg List.length isText
        rw [List.nil_append, List.length_replicate] at size
        simp only [List.length_cons, List.length_nil] at size
        omega
    | cons first letters =>
        obtain ⟨octet, isLetter, same⟩ := all first List.mem_cons_self
        rw [List.cons_append, List.cons.injEq] at isText
        rw [← isText.1] at same
        revert octet
        exact List.forall_mem_iff_forall_getElem.mpr (by decide)
  · rw [rejects_iff (by decide)]
    exact fun both => absurd both.1 (by decide)

end Convert

end NanoClr
