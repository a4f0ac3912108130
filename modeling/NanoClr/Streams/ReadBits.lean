import NanoClr.Streams.WriteBits

/-!
# Reading bits

Reading takes bits from the front of the string that is left of a stream.
-/

namespace NanoClr

namespace Streams

open Arrays

namespace CLR_RT_HeapBlock_MemoryStream

/-- A stream that is read from: the bits that are left of the last byte that
was begun, followed by the bytes behind it. -/
structure Reading (stream : CLR_RT_HeapBlock_MemoryStream)
    (remaining : List Bool) (before : List Buffer) (current : Buffer)
    (after : List Buffer) (count : Nat) (byte : UInt8) : Prop where
  buffers : stream.m_buffers = before ++ current :: after
  isCurrent : stream.m_current = before.length
  isPlace : stream.m_pos + 1 = count
  inside : count ≤ current.bytes.length
  filled : ∀ buffer ∈ current :: after, buffer.m_length = buffer.bytes.length
  few : stream.m_avail.toNat ≤ 8
  begun : stream.m_avail ≠ 0 → stream.currentByte = some byte
  bits : remaining = bitsOf stream.m_avail.toNat byte.toNat ++
    bitsOfBytes (current.bytes.drop count ++ after.flatMap Buffer.bytes)

/-- These bits are left to be read. -/
def Leaves (stream : CLR_RT_HeapBlock_MemoryStream) (remaining : List Bool) :
    Prop :=
  ∃ before current after count byte,
    stream.Reading remaining before current after count byte

section Reading

variable {stream : CLR_RT_HeapBlock_MemoryStream} {remaining : List Bool}
  {before after : List Buffer} {current : Buffer} {byte : UInt8}

/-- The number of bits that are left. -/
theorem Leaves.bitsAvailable
    (leaves : stream.Leaves remaining) :
    stream.BitsAvailable = Int32.ofNat remaining.length := by
  obtain ⟨before, current, after, count, byte, reading⟩ := leaves
  have isPlace := reading.isPlace
  have inside := reading.inside
  have lengths := congrArg List.length reading.bits
  rw [List.length_append, length_bitsOf, length_bitsOfBytes,
    List.length_append, List.length_drop] at lengths
  rw [BitsAvailable, reading.buffers, reading.isCurrent, List.drop_left,
    sum_lengths reading.filled, ← Int32.ofInt_eq_ofNat, List.flatMap_cons,
    List.length_append]
  congr 1
  omega

theorem Leaves.few
    (leaves : stream.Leaves remaining) :
    stream.m_avail.toNat ≤ 8 := by
  obtain ⟨before, current, after, count, byte, reading⟩ := leaves
  exact reading.few

/-! ## Finding a byte -/

theorem currentByte_eq
    {place : Nat}
    (buffers : stream.m_buffers = before ++ current :: after)
    (isCurrent : stream.m_current = before.length)
    (isPlace : stream.m_pos = place)
    (inside : place < current.bytes.length) :
    stream.currentByte = current.bytes[place]? := by
  have length := inside
  rw [Buffer.bytes, List.length_take] at length
  rw [currentByte, isPlace, if_pos (by omega), buffers, isCurrent,
    List.getElem?_append_right (Nat.le_refl _), Nat.sub_self,
    List.getElem?_cons_zero, Int.toNat_natCast, Buffer.bytes,
    List.getElem?_take_of_lt (by omega)]
  rfl

/-- A buffer with a byte at the position is not skipped. -/
theorem skipBuffers_inside
    {place : Nat}
    (buffers : stream.m_buffers = before ++ current :: after)
    (isCurrent : stream.m_current = before.length)
    (isPlace : stream.m_pos = place)
    (filled : ∀ buffer ∈ current :: after,
      buffer.m_length = buffer.bytes.length)
    (isAvail : stream.m_avail = 8)
    (inside : place < current.bytes.length) :
    skipBuffers stream (current :: after) = (stream, .S_OK ()) ∧
      stream.Leaves (bitsOfBytes
        (current.bytes.drop place ++ after.flatMap Buffer.bytes)) := by
  have length := filled current List.mem_cons_self
  have eight : (8 : UInt32).toNat = 8 := rfl
  refine ⟨?_, before, current, after, place + 1, current.bytes[place], buffers,
    isCurrent, ?_, inside, filled, ?_, fun _ => ?_, ?_⟩
  · rw [skipBuffers, if_neg (by omega)]
  · rw [isPlace]
    rfl
  · rw [isAvail, eight]
  · rw [currentByte_eq buffers isCurrent isPlace inside,
      List.getElem?_eq_getElem inside]
  · rw [isAvail, eight, List.drop_eq_getElem_cons inside, List.cons_append,
      bitsOfBytes, List.flatMap_cons]
    rfl

/-- Buffers without a byte at the position are skipped. -/
theorem skipBuffers_spec
    {place : Nat}
    (buffers : stream.m_buffers = before ++ current :: after)
    (isCurrent : stream.m_current = before.length)
    (isPlace : stream.m_pos = place)
    (filled : ∀ buffer ∈ current :: after,
      buffer.m_length = buffer.bytes.length)
    (isAvail : stream.m_avail = 8)
    (some_ : current.bytes.drop place ++ after.flatMap Buffer.bytes ≠ []) :
    ∃ later, skipBuffers stream (current :: after) = (later, .S_OK ()) ∧
      later.m_avail = 8 ∧ later.Leaves (bitsOfBytes
        (current.bytes.drop place ++ after.flatMap Buffer.bytes)) := by
  induction after generalizing stream before current place with
  | nil =>
      have inside : place < current.bytes.length := by
        apply Nat.lt_of_not_le
        intro behind
        exact some_ (by rw [List.drop_eq_nil_of_le behind]; rfl)
      exact ⟨stream, (skipBuffers_inside buffers isCurrent isPlace filled
        isAvail inside).1, isAvail, (skipBuffers_inside buffers isCurrent
        isPlace filled isAvail inside).2⟩
  | cons next after inductionHypothesis =>
      by_cases inside : place < current.bytes.length
      · exact ⟨stream, (skipBuffers_inside buffers isCurrent isPlace filled
          isAvail inside).1, isAvail, (skipBuffers_inside buffers isCurrent
          isPlace filled isAvail inside).2⟩
      · have behind := Nat.le_of_not_lt inside
        have length := filled current List.mem_cons_self
        rw [List.drop_eq_nil_of_le behind, List.nil_append, List.flatMap_cons]
          at some_ ⊢
        rw [skipBuffers, if_pos (by omega)]
        apply @inductionHypothesis _ (before ++ [current]) next 0
        · rw [buffers, List.append_assoc]
          rfl
        · dsimp only
          rw [isCurrent, List.length_append]
          rfl
        · rfl
        · exact fun buffer member =>
            filled buffer (List.mem_cons_of_mem current member)
        · exact isAvail
        · exact some_

/-- A byte with bits that have not been read is found. -/
theorem findData_spec
    (leaves : stream.Leaves remaining)
    (some_ : remaining ≠ []) :
    ∃ later, findData stream = (later, .S_OK ()) ∧ later.m_avail ≠ 0 ∧
      later.Leaves remaining := by
  by_cases noneLeft : stream.m_avail = 0
  · obtain ⟨before, current, after, count, byte, reading⟩ := leaves
    have bits := reading.bits
    rw [noneLeft, UInt32.toNat_zero, bitsOf, List.nil_append] at bits
    have someBytes : current.bytes.drop count ++ after.flatMap Buffer.bytes ≠
        [] := by
      intro isNil
      rw [isNil] at bits
      exact some_ bits
    obtain ⟨later, isFound, isAvail, leavesLater⟩ := @skipBuffers_spec
      { stream with m_pos := stream.m_pos + 1, m_avail := 8 } before after
      current count reading.buffers reading.isCurrent reading.isPlace
      reading.filled rfl someBytes
    rw [← bits] at leavesLater
    have isDrop : stream.m_buffers.drop stream.m_current = current :: after := by
      rw [reading.buffers, reading.isCurrent, List.drop_left]
    rw [findData, if_pos noneLeft, isDrop]
    refine ⟨later, isFound, ?_, leavesLater⟩
    rw [isAvail]
    decide
  · rw [findData, if_neg noneLeft]
    exact ⟨stream, rfl, noneLeft, leaves⟩

/-! ## Reading numbers -/

/-- Some bits are read from the byte that has been found. -/
theorem Leaves.take
    {insert : UInt32}
    (leaves : stream.Leaves remaining)
    (someLeft : stream.m_avail ≠ 0)
    (fits : insert ≤ stream.m_avail) :
    ∃ byte rest, stream.currentByte = some byte ∧
      remaining = bitsOf insert.toNat
        (byte.toNat >>> (stream.m_avail - insert).toNat) ++ rest ∧
      Leaves { stream with m_avail := stream.m_avail - insert } rest := by
  obtain ⟨before, current, after, count, byte, reading⟩ := leaves
  have isRest := UInt32.toNat_sub_of_le _ _ fits
  rw [UInt32.le_iff_toNat_le] at fits
  have few := reading.few
  have isByte := reading.begun someLeft
  have width : stream.m_avail.toNat =
      insert.toNat + (stream.m_avail - insert).toNat := by omega
  refine ⟨byte, _, isByte, ?_, before, current, after, count, byte,
    reading.buffers, reading.isCurrent, reading.isPlace, reading.inside,
    reading.filled, ?_, fun _ => isByte, rfl⟩
  · rw [reading.bits, width, bitsOf_add, List.append_assoc]
  · dsimp only
    omega

/-- A chunk of bits joins those in front of it. -/
theorem joined_toNat
    {val read pos : UInt32}
    {done chunk : List Bool}
    (isVal : val.toNat = ofBits done <<< (chunk.length + pos.toNat))
    (isRead : read.toNat = ofBits chunk)
    (positive : 0 < chunk.length)
    (few : chunk.length + pos.toNat ≤ 32) :
    (val ||| read <<< pos).toNat = ofBits (done ++ chunk) <<< pos.toNat := by
  have inside : ofBits chunk <<< pos.toNat <
      2 ^ (chunk.length + pos.toNat) := by
    rw [Nat.shiftLeft_eq, Nat.pow_add]
    exact Nat.mul_lt_mul_of_pos_right (ofBits_lt chunk)
      (Nat.two_pow_pos pos.toNat)
  have atMost : 2 ^ (chunk.length + pos.toNat) ≤ 2 ^ 32 :=
    Nat.pow_le_pow_right (by omega) few
  rw [UInt32.toNat_or, UInt32.toNat_shiftLeft,
    Nat.mod_eq_of_lt (show pos.toNat < 32 by omega), isRead,
    Nat.mod_eq_of_lt (by omega), isVal, ← Nat.shiftLeft_add_eq_or_of_lt inside,
    ofBits_append, Nat.shiftLeft_eq, Nat.shiftLeft_eq, Nat.shiftLeft_eq,
    Nat.pow_add, Nat.add_mul, Nat.mul_assoc,
    Nat.mul_left_comm (2 ^ chunk.length)]

theorem readRounds_spec
    {rounds : Nat}
    {val bits : UInt32}
    {done taken rest : List Bool}
    (enough : bits.toNat ≤ rounds)
    (few : bits.toNat ≤ 32)
    (isVal : val.toNat = ofBits done <<< bits.toNat)
    (length : taken.length = bits.toNat)
    (leaves : stream.Leaves (taken ++ rest)) :
    ∃ later read, readRounds rounds val bits bits stream =
        (later, .S_OK read) ∧
      read.toNat = ofBits (done ++ taken) ∧ later.Leaves rest := by
  induction rounds generalizing stream val bits done taken with
  | zero =>
      have none_ : bits.toNat = 0 := Nat.le_zero.mp enough
      rw [none_, List.length_eq_zero_iff] at length
      rw [none_, Nat.shiftLeft_zero] at isVal
      subst length
      rw [List.append_nil]
      exact ⟨stream, val, rfl, isVal, leaves⟩
  | succ rounds inductionHypothesis =>
      rw [readRounds]
      split
      case isFalse noBits =>
        have none_ : bits.toNat = 0 := by
          rw [UInt32.lt_iff_toNat_lt, UInt32.toNat_zero] at noBits
          omega
        rw [none_, List.length_eq_zero_iff] at length
        rw [none_, Nat.shiftLeft_zero] at isVal
        subst length
        rw [List.append_nil]
        exact ⟨stream, val, rfl, isVal, leaves⟩
      case isTrue someBits =>
        have positiveBits := UInt32.lt_iff_toNat_lt.mp someBits
        rw [UInt32.toNat_zero, ← length] at positiveBits
        obtain ⟨found, isFound, someLeft, leavesFound⟩ := findData_spec leaves
          (List.append_ne_nil_of_left_ne_nil
            (List.length_pos_iff.mp positiveBits) rest)
        rw [isFound]
        dsimp only
        generalize isInsert :
          (if bits < found.m_avail then bits else found.m_avail) = insert
        obtain ⟨fitsBits, fitsLeft, positive⟩ :=
          insert_bounds isInsert someBits someLeft
        have isRest := UInt32.toNat_sub_of_le _ _ fitsBits
        have atMost := UInt32.le_iff_toNat_le.mp fitsBits
        have left := leavesFound.few
        have atMostLeft := UInt32.le_iff_toNat_le.mp fitsLeft
        have isOther := UInt32.toNat_sub_of_le _ _ fitsLeft
        obtain ⟨byte, others, isByte, isTaken, leavesNext⟩ :=
          leavesFound.take someLeft fitsLeft
        -- The bits of the byte are the first ones that are taken.
        rw [← List.take_append_drop insert.toNat taken, List.append_assoc]
          at isTaken
        obtain ⟨isChunk, isNext⟩ := List.append_inj isTaken (by
          rw [List.length_take, length_bitsOf]
          omega)
        rw [← isNext] at leavesNext
        have isRead : ((byte.toUInt32 >>> (found.m_avail - insert)) &&&
            ((1 : UInt32) <<< insert) - 1).toNat =
              ofBits (taken.take insert.toNat) := by
          rw [masked_toNat (by omega), UInt32.toNat_shiftRight,
            UInt8.toNat_toUInt32, Nat.mod_eq_of_lt
              (show (found.m_avail - insert).toNat < 32 by omega), isChunk,
            ofBits_bitsOf]
        have lengthChunk : (taken.take insert.toNat).length = insert.toNat := by
          rw [List.length_take]
          omega
        have width : bits.toNat =
            (taken.take insert.toNat).length + (bits - insert).toNat := by
          omega
        rw [width] at isVal
        have isJoined := joined_toNat isVal isRead (by omega) (by omega)
        obtain ⟨later, read, isLater, isResult, leavesLater⟩ :=
          inductionHypothesis (show (bits - insert).toNat ≤ rounds by omega)
            (by omega) isJoined (by
              rw [List.length_drop]
              omega) leavesNext
        rw [List.append_assoc, List.take_append_drop] at isResult
        rw [isByte]
        exact ⟨later, read, isLater, isResult, leavesLater⟩

theorem readBits_spec
    {bits : UInt32}
    {taken rest : List Bool}
    (few : bits.toNat ≤ 32)
    (length : taken.length = bits.toNat)
    (leaves : stream.Leaves (taken ++ rest)) :
    ∃ later read, stream.ReadBits bits = (later, .S_OK read) ∧
      read.toNat = ofBits taken ∧ later.Leaves rest := by
  have isZero : (0 : UInt32).toNat = ofBits [] <<< bits.toNat := by
    rw [UInt32.toNat_zero, ofBits, Nat.zero_shiftLeft]
  exact readRounds_spec (Nat.le_refl _) few isZero length leaves

/-- The words of a number of 64 bits. -/
theorem ofWords_toNat {low high : UInt32} :
    (ofWords low high).toNat = 2 ^ 32 * high.toNat + low.toNat := by
  have highInside := high.toNat_lt
  have lowInside := low.toNat_lt
  have shift : (32 : UInt64).toNat % 64 = 32 := rfl
  rw [ofWords, UInt64.toNat_or, UInt64.toNat_shiftLeft, shift,
    UInt32.toNat_toUInt64, UInt32.toNat_toUInt64, Nat.mod_eq_of_lt
      (by rw [Nat.shiftLeft_eq]; omega),
    ← Nat.shiftLeft_add_eq_or_of_lt lowInside, Nat.shiftLeft_eq, Nat.mul_comm]

theorem readBits64_spec
    {bits : UInt32}
    {taken rest : List Bool}
    (few : bits.toNat ≤ 64)
    (length : taken.length = bits.toNat)
    (leaves : stream.Leaves (taken ++ rest)) :
    ∃ later read, stream.ReadBits64 bits = (later, .S_OK read) ∧
      read.toNat = ofBits taken ∧ later.Leaves rest := by
  have word : (32 : UInt32).toNat = 32 := rfl
  unfold ReadBits64
  split
  case isTrue twoWords =>
    have isHigh := UInt32.toNat_sub_of_le _ _ (UInt32.le_of_lt twoWords)
    rw [UInt32.lt_iff_toNat_lt, word] at twoWords
    rw [word] at isHigh
    have lengthHigh : (taken.take (bits - 32).toNat).length =
        (bits - 32).toNat := by
      rw [List.length_take]
      omega
    have lengthLow : (taken.drop (bits - 32).toNat).length =
        (32 : UInt32).toNat := by
      rw [List.length_drop, word]
      omega
    rw [← List.take_append_drop (bits - 32).toNat taken, List.append_assoc]
      at leaves
    obtain ⟨middle, high, isMiddle, readHigh, leavesMiddle⟩ :=
      readBits_spec (by omega) lengthHigh leaves
    obtain ⟨later, low, isLater, readLow, leavesLater⟩ :=
      readBits_spec (by omega) lengthLow leavesMiddle
    have joined := ofBits_append (taken.take (bits - 32).toNat)
      (taken.drop (bits - 32).toNat)
    rw [List.take_append_drop, lengthLow, word] at joined
    rw [isMiddle]
    dsimp only
    rw [isLater]
    refine ⟨later, _, rfl, ?_, leavesLater⟩
    rw [ofWords_toNat, readHigh, readLow, joined]
  case isFalse oneWord =>
    rw [UInt32.lt_iff_toNat_lt, word] at oneWord
    obtain ⟨later, low, isLater, readLow, leavesLater⟩ :=
      readBits_spec (by omega) length leaves
    dsimp only
    rw [isLater]
    refine ⟨later, _, rfl, ?_, leavesLater⟩
    rw [ofWords_toNat, readLow, UInt32.toNat_zero, Nat.mul_zero, Nat.zero_add]

theorem readArray_spec
    {buf : List UInt8}
    {rest : List Bool}
    (leaves : stream.Leaves (bitsOfBytes buf ++ rest)) :
    ∃ later, stream.ReadArray buf.length = (later, .S_OK buf) ∧
      later.Leaves rest := by
  induction buf generalizing stream with
  | nil => exact ⟨stream, rfl, leaves⟩
  | cons byte buf inductionHypothesis =>
      rw [bitsOfBytes, List.flatMap_cons, ← bitsOfBytes, List.append_assoc]
        at leaves
      obtain ⟨middle, data, isMiddle, isData, leavesMiddle⟩ :=
        @readBits_spec stream 8 _ _ (by decide) length_bitsOf leaves
      obtain ⟨later, isLater, leavesLater⟩ := inductionHypothesis leavesMiddle
      have isByte : data.toUInt8 = byte := by
        have inside := byte.toNat_lt
        have eight : (8 : UInt32).toNat = 8 := rfl
        rw [ofBits_bitsOf, eight] at isData
        rw [← UInt8.toNat_inj, UInt32.toNat_toUInt8, isData]
        omega
      rw [List.length_cons, ReadArray, isMiddle]
      dsimp only
      rw [isLater, isByte]
      exact ⟨later, rfl, leavesLater⟩

/-! ## Rewinding -/

/-- All that has been written is left, with the free bits of the last byte. -/
theorem Holds.rewind
    {written : List Bool}
    (holds : stream.Holds written) :
    ∃ free, stream.Rewind.Leaves (written ++ List.replicate free false) := by
  obtain ⟨full, current, count, writing⟩ := holds
  obtain ⟨first, others, isFirst⟩ : ∃ first others,
      full ++ [current] = first :: others :=
    List.exists_cons_of_ne_nil (List.append_ne_nil_of_right_ne_nil full
      (List.cons_ne_nil current []))
  have filled : ∀ buffer ∈ full ++ [current],
      buffer.m_length = buffer.bytes.length := by
    intro buffer member
    rcases List.mem_append.mp member with member | member
    · exact writing.filled buffer member
    · have inside := writing.inside
      rw [List.mem_singleton.mp member, writing.bytes, writing.length,
        List.length_take, Vector.length_toList, Nat.min_eq_left inside]
  have bits := writing.bits
  rw [← writing.bytes] at bits
  have bytes : full.flatMap Buffer.bytes ++ current.bytes =
      (first :: others).flatMap Buffer.bytes := by
    rw [← isFirst, List.flatMap_append, List.flatMap_singleton]
  rw [bytes] at bits
  refine ⟨stream.m_avail.toNat, [], first, others, 0, 0, ?_⟩
  constructor
  · exact writing.buffers.trans isFirst
  · rfl
  · rfl
  · exact Nat.zero_le _
  · rw [← isFirst]
    exact filled
  · exact Nat.zero_le _
  · exact fun notZero => absurd rfl notZero
  · rw [← bits]
    rfl

end Reading

end CLR_RT_HeapBlock_MemoryStream

end Streams

end NanoClr
