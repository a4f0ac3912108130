import Mathlib.Algebra.BigOperators.Group.List.Basic
import NanoClr.Library.BitStrings
import NanoClr.Streams.MemoryStream

/-!
# Writing bits

What is written to a stream is one string of bits, however it lies in the bytes
and the buffers.
-/

namespace NanoClr

namespace Streams

open Arrays

/-! ## Words -/

/-- The lowest bits of a word, as a mask selects them. -/
theorem masked_toNat
    {val insert : UInt32}
    (few : insert.toNat ≤ 8) :
    (val &&& ((1 : UInt32) <<< insert) - 1).toNat =
      val.toNat % 2 ^ insert.toNat := by
  have atMost : 2 ^ insert.toNat ≤ 2 ^ 8 :=
    Nat.pow_le_pow_right (by omega) few
  have positive := Nat.two_pow_pos insert.toNat
  have one : (1 : UInt32).toNat = 1 := rfl
  have shifted : ((1 : UInt32) <<< insert).toNat = 2 ^ insert.toNat := by
    rw [UInt32.toNat_shiftLeft,
      Nat.mod_eq_of_lt (show insert.toNat < 32 by omega), one,
      Nat.one_shiftLeft, Nat.mod_eq_of_lt (by omega)]
  have isMask : (((1 : UInt32) <<< insert) - 1).toNat =
      2 ^ insert.toNat - 1 := by
    rw [UInt32.toNat_sub_of_le, shifted, one]
    rw [UInt32.le_iff_toNat_le, shifted, one]
    exact positive
  rw [UInt32.toNat_and, isMask, Nat.and_two_pow_sub_one_eq_mod]

/-- A chunk of bits as it is written to a byte. -/
theorem inserted_toNat
    {chunk insert rest : UInt32}
    (small : chunk.toNat < 2 ^ insert.toNat)
    (few : insert.toNat + rest.toNat ≤ 8) :
    (chunk <<< rest).toUInt8.toNat = chunk.toNat <<< rest.toNat := by
  have inside : chunk.toNat <<< rest.toNat < 2 ^ 8 := by
    have atMost : 2 ^ (insert.toNat + rest.toNat) ≤ 2 ^ 8 :=
      Nat.pow_le_pow_right (by omega) few
    have less := Nat.mul_lt_mul_of_pos_right small (Nat.two_pow_pos rest.toNat)
    rw [Nat.pow_add] at atMost
    rw [Nat.shiftLeft_eq]
    omega
  rw [UInt32.toNat_toUInt8, UInt32.toNat_shiftLeft,
    Nat.mod_eq_of_lt (show rest.toNat < 32 by omega),
    Nat.mod_eq_of_lt (show chunk.toNat <<< rest.toNat < 2 ^ 32 by omega),
    Nat.mod_eq_of_lt inside]

/-! ## Bytes -/

/-- The bits of some bytes. -/
def bitsOfBytes (bytes : List UInt8) : List Bool :=
  bytes.flatMap fun byte => bitsOf 8 byte.toNat

section Bytes

variable {bytes later : List UInt8} {byte : UInt8}

theorem bitsOfBytes_append :
    bitsOfBytes (bytes ++ later) = bitsOfBytes bytes ++ bitsOfBytes later :=
  List.flatMap_append

theorem bitsOfBytes_singleton : bitsOfBytes [byte] = bitsOf 8 byte.toNat :=
  List.flatMap_singleton _ _

theorem length_bitsOfBytes :
    (bitsOfBytes bytes).length = 8 * bytes.length := by
  induction bytes with
  | nil => rfl
  | cons byte bytes inductionHypothesis =>
      rw [bitsOfBytes, List.flatMap_cons, List.length_append, length_bitsOf,
        ← bitsOfBytes, inductionHypothesis, List.length_cons]
      omega

/-- Writing bits to the last byte, whose last bits are free. -/
theorem bitsOfBytes_or
    {written : List Bool}
    {chunk insert rest : Nat}
    {inserted : UInt8}
    (bits : bitsOfBytes (bytes ++ [byte]) =
      written ++ List.replicate (insert + rest) false)
    (few : insert + rest ≤ 8)
    (small : chunk < 2 ^ insert)
    (isInserted : inserted.toNat = chunk <<< rest) :
    bitsOfBytes (bytes ++ [byte ||| inserted]) =
      written ++ bitsOf insert chunk ++ List.replicate rest false := by
  have width : 8 - (insert + rest) + (insert + rest) = 8 := by omega
  have isByte : bitsOf 8 byte.toNat =
      bitsOf (8 - (insert + rest)) (byte.toNat >>> (insert + rest)) ++
        bitsOf (insert + rest) byte.toNat := by
    rw [← bitsOf_add, width]
  rw [bitsOfBytes_append, bitsOfBytes_singleton, isByte, ← List.append_assoc]
    at bits
  obtain ⟨isWritten, zeros⟩ := List.append_inj' bits (by
    rw [length_bitsOf, List.length_replicate])
  have wrote := @bitsOf_or_shiftLeft _ (8 - (insert + rest)) _ _ _ zeros small
  rw [width] at wrote
  rw [bitsOfBytes_append, bitsOfBytes_singleton, UInt8.toNat_or, isInserted,
    wrote, ← isWritten, List.append_assoc, List.append_assoc]

end Bytes

/-! ## Payloads -/

section Payloads

variable {payload : Payload} {place : Nat}

theorem take_replaced
    (inside : place < c_PayloadSize)
    (value : UInt8) :
    (payload.setIfInBounds place value).toList.take (place + 1) =
      payload.toList.take place ++ [value] := by
  have length : payload.toList.length = c_PayloadSize := Vector.length_toList
  rw [Vector.toList_setIfInBounds, List.take_add_one,
    List.take_set_of_le (Nat.le_refl place),
    List.getElem?_set_self (by omega)]
  rfl

theorem take_place
    (inside : place < c_PayloadSize) :
    payload.toList.take (place + 1) =
      payload.toList.take place ++ [payload[place]?.getD 0] := by
  have length : payload.toList.length = c_PayloadSize := Vector.length_toList
  rw [List.take_add_one, Vector.getElem?_toList,
    Vector.getElem?_eq_getElem inside]
  rfl

end Payloads

namespace CLR_RT_HeapBlock_MemoryStream

/-! ## What has been written -/

/-- A stream that is written to: the bits that have been written, followed by
the free bits of the last byte.  The current buffer is the last one. -/
structure Writing (stream : CLR_RT_HeapBlock_MemoryStream)
    (written : List Bool) (full : List Buffer) (current : Buffer)
    (count : Nat) : Prop where
  buffers : stream.m_buffers = full ++ [current]
  isCurrent : stream.m_current = full.length
  isPlace : stream.m_pos + 1 = count
  inside : count ≤ c_PayloadSize
  own : current.m_data = none
  length : current.m_length = count
  filled : ∀ buffer ∈ full, buffer.m_length = buffer.bytes.length
  few : stream.m_avail.toNat ≤ 8
  started : stream.m_avail ≠ 0 → 0 < count
  bits : bitsOfBytes (full.flatMap Buffer.bytes ++
    current.m_payload.toList.take count) =
      written ++ List.replicate stream.m_avail.toNat false

/-- The stream holds these bits. -/
def Holds (stream : CLR_RT_HeapBlock_MemoryStream) (written : List Bool) :
    Prop :=
  ∃ full current count, stream.Writing written full current count

section Writing

variable {cache : EventCache} {stream : CLR_RT_HeapBlock_MemoryStream}
  {written : List Bool} {full : List Buffer} {current : Buffer} {count : Nat}

theorem modify_last (replace : Buffer → Buffer) :
    (full ++ [current]).modify full.length replace =
      full ++ [replace current] := by
  rw [List.modify_eq_take_cons_drop (by simp)]
  simp

theorem Writing.bytes
    (writing : stream.Writing written full current count) :
    current.bytes = current.m_payload.toList.take count := by
  rw [Buffer.bytes, Buffer.data, writing.own, writing.length]
  rfl

/-- The next byte of the current buffer is taken. -/
theorem Writing.nextByte
    (writing : stream.Writing written full current count)
    (noneLeft : stream.m_avail = 0)
    (room : count < c_PayloadSize) :
    Holds { replaceByte { stream with m_pos := stream.m_pos + 1 }
      (fun _ => 0) 1 with m_avail := 8 } written := by
  have place : (stream.m_pos + 1).toNat = count := by
    rw [writing.isPlace]
    exact Int.toNat_natCast count
  have eight : (8 : UInt32).toNat = 8 := rfl
  refine ⟨full, { current with
    m_length := current.m_length + 1
    m_payload := current.m_payload.setIfInBounds count 0 }, count + 1, ?_⟩
  constructor
  · dsimp only [replaceByte]
    rw [writing.buffers, writing.isCurrent, modify_last, place]
  · exact writing.isCurrent
  · dsimp only [replaceByte]
    rw [writing.isPlace]
    rfl
  · exact room
  · exact writing.own
  · dsimp only
    rw [writing.length]
    rfl
  · exact writing.filled
  · exact Nat.le_of_eq eight
  · exact fun _ => Nat.succ_pos count
  · have bits := writing.bits
    dsimp only
    rw [noneLeft, UInt32.toNat_zero, List.replicate_zero, List.append_nil]
      at bits
    rw [take_replaced room, ← List.append_assoc, bitsOfBytes_append, bits,
      bitsOfBytes_singleton, eight, UInt8.toNat_zero, bitsOf_zero]

/-- A further buffer is linked behind the others. -/
theorem Writing.newBuffer
    {next : CLR_RT_HeapBlock_MemoryStream}
    (writing : stream.Writing written full current count)
    (noneLeft : stream.m_avail = 0)
    (isFull : count = c_PayloadSize)
    (sameBuffers : next.m_buffers = stream.m_buffers)
    {payload : Payload}
    (isPayload : cache next.m_buffers.length = some payload) :
    ∃ later, NewBuffer cache next = some later ∧ later.m_avail = 0 ∧
      later.Writing written (full ++ [current]) ⟨none, 0, payload⟩ 0 := by
  have bits := writing.bits
  have bytes := writing.bytes
  rw [noneLeft, ← bytes] at bits
  unfold NewBuffer
  rw [isPayload]
  refine ⟨_, rfl, rfl, ?_⟩
  constructor
  · dsimp only
    rw [sameBuffers, writing.buffers]
  · dsimp only
    rw [sameBuffers, writing.buffers]
  · rfl
  · exact Nat.zero_le _
  · rfl
  · rfl
  · intro buffer member
    rcases List.mem_append.mp member with member | member
    · exact writing.filled buffer member
    · have length : current.m_payload.toList.length = c_PayloadSize :=
        Vector.length_toList
      rw [List.mem_singleton.mp member, bytes, writing.length,
        List.length_take, length, isFull, Nat.min_self]
  · exact Nat.zero_le _
  · exact fun notZero => absurd rfl notZero
  · rw [List.take_zero, List.append_nil, List.flatMap_append,
      List.flatMap_singleton]
    exact bits

/-- A byte with free bits is found. -/
theorem findFree_spec
    (supplied : ∀ number, (cache number).isSome)
    (holds : stream.Holds written) :
    ∃ later, findFree cache stream = (later, .S_OK ()) ∧
      later.m_avail ≠ 0 ∧ later.Holds written := by
  obtain ⟨full, current, count, writing⟩ := holds
  by_cases noneLeft : stream.m_avail = 0
  · have place := writing.isPlace
    by_cases room : count < c_PayloadSize
    · have inside : stream.m_pos + 1 < (c_PayloadSize : Int) := by omega
      unfold findFree
      rw [if_pos noneLeft, if_pos inside]
      exact ⟨_, rfl, (by decide : (8 : UInt32) ≠ 0),
        writing.nextByte noneLeft room⟩
    · have isFull := Nat.le_antisymm writing.inside (Nat.le_of_not_lt room)
      have behind : ¬ stream.m_pos + 1 < (c_PayloadSize : Int) := by omega
      obtain ⟨payload, isPayload⟩ :=
        Option.isSome_iff_exists.mp (supplied stream.m_buffers.length)
      obtain ⟨later, isNew, noneLater, writingLater⟩ :=
        @Writing.newBuffer cache stream written full current count
          { stream with m_pos := stream.m_pos + 1 } writing noneLeft isFull rfl
          payload isPayload
      have start : later.m_pos + 1 < (c_PayloadSize : Int) := by
        rw [writingLater.isPlace]
        decide
      unfold findFree
      rw [if_pos noneLeft, if_neg behind]
      split
      case h_1 isNone =>
        rw [isNew] at isNone
        cases isNone
      case h_2 next isNext =>
        rw [isNew] at isNext
        cases isNext
        unfold findFree
        rw [if_pos noneLater, if_pos start]
        exact ⟨_, rfl, (by decide : (8 : UInt32) ≠ 0),
          writingLater.nextByte noneLater (by decide)⟩
  · unfold findFree
    rw [if_neg noneLeft]
    exact ⟨stream, rfl, noneLeft, full, current, count, writing⟩

/-- Some bits are written to the byte that has been found. -/
theorem Holds.insert
    {chunk insert : UInt32}
    (holds : stream.Holds written)
    (someLeft : stream.m_avail ≠ 0)
    (fits : insert ≤ stream.m_avail)
    (small : chunk.toNat < 2 ^ insert.toNat) :
    Holds { stream.replaceByte
        (· ||| (chunk <<< (stream.m_avail - insert)).toUInt8) 0 with
      m_avail := stream.m_avail - insert }
      (written ++ bitsOf insert.toNat chunk.toNat) := by
  obtain ⟨full, current, count, writing⟩ := holds
  have isRest := UInt32.toNat_sub_of_le _ _ fits
  have few := writing.few
  have positive := writing.started someLeft
  have inside := writing.inside
  rw [UInt32.le_iff_toNat_le] at fits
  obtain ⟨before, rfl⟩ : ∃ before, count = before + 1 :=
    ⟨count - 1, by omega⟩
  have place : stream.m_pos.toNat = before := by
    have isPlace := writing.isPlace
    omega
  refine ⟨full, { current with
    m_length := current.m_length + 0
    m_payload := current.m_payload.setIfInBounds before
      ((current.m_payload[before]?.getD 0) |||
        (chunk <<< (stream.m_avail - insert)).toUInt8) }, before + 1, ?_⟩
  constructor
  · dsimp only [replaceByte]
    rw [writing.buffers, writing.isCurrent, modify_last, place]
  · exact writing.isCurrent
  · exact writing.isPlace
  · exact inside
  · exact writing.own
  · exact (Int.add_zero _).trans writing.length
  · exact writing.filled
  · dsimp only
    omega
  · exact fun _ => positive
  · have bits := writing.bits
    have width : stream.m_avail.toNat =
        insert.toNat + (stream.m_avail - insert).toNat := by omega
    rw [take_place (by omega), ← List.append_assoc, width] at bits
    dsimp only
    rw [take_replaced (by omega), ← List.append_assoc]
    exact bitsOfBytes_or bits (by omega) small
      (inserted_toNat small (by omega))

/-- As many bits as one round writes or reads. -/
theorem insert_bounds
    {bits avail insert : UInt32}
    (isInsert : (if bits < avail then bits else avail) = insert)
    (someBits : 0 < bits)
    (someLeft : avail ≠ 0) :
    insert ≤ bits ∧ insert ≤ avail ∧ 0 < insert.toNat := by
  rw [UInt32.lt_iff_toNat_lt, UInt32.toNat_zero] at someBits
  rw [Ne, ← UInt32.toNat_inj, UInt32.toNat_zero] at someLeft
  rw [UInt32.le_iff_toNat_le, UInt32.le_iff_toNat_le, ← isInsert]
  split
  case isTrue less =>
    rw [UInt32.lt_iff_toNat_lt] at less
    omega
  case isFalse notLess =>
    rw [UInt32.lt_iff_toNat_lt] at notLess
    omega

theorem Holds.few
    (holds : stream.Holds written) :
    stream.m_avail.toNat ≤ 8 := by
  obtain ⟨full, current, count, writing⟩ := holds
  exact writing.few

theorem writeRounds_spec
    (supplied : ∀ number, (cache number).isSome)
    {rounds : Nat}
    {val bits : UInt32}
    (enough : bits.toNat ≤ rounds)
    (few : bits.toNat ≤ 32)
    (holds : stream.Holds written) :
    ∃ later, writeRounds cache val rounds bits bits stream = (later, .S_OK ()) ∧
      later.Holds (written ++ bitsOf bits.toNat val.toNat) := by
  induction rounds generalizing bits stream written with
  | zero =>
      have none_ : bits.toNat = 0 := Nat.le_zero.mp enough
      refine ⟨stream, rfl, ?_⟩
      rw [none_, bitsOf, List.append_nil]
      exact holds
  | succ rounds inductionHypothesis =>
      rw [writeRounds]
      split
      case isFalse noBits =>
        have none_ : bits.toNat = 0 := by
          rw [UInt32.lt_iff_toNat_lt, UInt32.toNat_zero] at noBits
          omega
        refine ⟨stream, rfl, ?_⟩
        rw [none_, bitsOf, List.append_nil]
        exact holds
      case isTrue someBits =>
        obtain ⟨found, isFound, someLeft, holdsFound⟩ :=
          findFree_spec supplied holds
        rw [isFound]
        dsimp only
        generalize isInsert :
          (if bits < found.m_avail then bits else found.m_avail) = insert
        obtain ⟨fitsBits, fitsLeft, positive⟩ :=
          insert_bounds isInsert someBits someLeft
        have left := holdsFound.few
        have isRest := UInt32.toNat_sub_of_le _ _ fitsBits
        have atMost := UInt32.le_iff_toNat_le.mp fitsLeft
        have inside := UInt32.le_iff_toNat_le.mp fitsBits
        have chunk : ((val >>> (bits - insert)) &&&
            ((1 : UInt32) <<< insert) - 1).toNat =
              (val.toNat >>> (bits - insert).toNat) % 2 ^ insert.toNat := by
          rw [masked_toNat (by omega), UInt32.toNat_shiftRight,
            Nat.mod_eq_of_lt (show (bits - insert).toNat < 32 by omega)]
        have holdsNext := holdsFound.insert someLeft fitsLeft
          (chunk.trans_lt (Nat.mod_lt _ (Nat.two_pow_pos _)))
        obtain ⟨later, isLater, holdsLater⟩ := inductionHypothesis
          (show (bits - insert).toNat ≤ rounds by omega) (by omega) holdsNext
        have width : bits.toNat = insert.toNat + (bits - insert).toNat := by
          omega
        refine ⟨later, isLater, ?_⟩
        rw [width, bitsOf_add, ← List.append_assoc,
          ← bitsOf_mod (Nat.le_refl insert.toNat), ← chunk]
        exact holdsLater

theorem writeBits_spec
    (supplied : ∀ number, (cache number).isSome)
    {val bits : UInt32}
    (few : bits.toNat ≤ 32)
    (holds : stream.Holds written) :
    ∃ later, stream.WriteBits cache val bits = (later, .S_OK ()) ∧
      later.Holds (written ++ bitsOf bits.toNat val.toNat) :=
  writeRounds_spec supplied (Nat.le_refl _) few holds

/-- The words of a number of 64 bits. -/
theorem lowWord_bits
    {res : UInt64}
    {width : Nat}
    (few : width ≤ 32) :
    bitsOf width res.toUInt32.toNat = bitsOf width res.toNat := by
  rw [UInt64.toNat_toUInt32, bitsOf_mod few]

theorem highWord_bits
    {res : UInt64}
    {width : Nat}
    (few : width ≤ 32) :
    bitsOf width (res >>> 32).toUInt32.toNat =
      bitsOf width (res.toNat >>> 32) := by
  have shift : (32 : UInt64).toNat % 64 = 32 := rfl
  rw [UInt64.toNat_toUInt32, UInt64.toNat_shiftRight, shift, bitsOf_mod few]

theorem writeBits64_spec
    (supplied : ∀ number, (cache number).isSome)
    {res : UInt64}
    {bits : UInt32}
    (few : bits.toNat ≤ 64)
    (holds : stream.Holds written) :
    ∃ later, stream.WriteBits64 cache res bits = (later, .S_OK ()) ∧
      later.Holds (written ++ bitsOf bits.toNat res.toNat) := by
  have word : (32 : UInt32).toNat = 32 := rfl
  unfold WriteBits64
  split
  case isTrue twoWords =>
    have isHigh := UInt32.toNat_sub_of_le _ _ (UInt32.le_of_lt twoWords)
    rw [UInt32.lt_iff_toNat_lt, word] at twoWords
    rw [word] at isHigh
    obtain ⟨middle, isMiddle, holdsMiddle⟩ := @writeBits_spec _ _ _ supplied
      (res >>> 32).toUInt32 (bits - 32) (by omega) holds
    obtain ⟨later, isLater, holdsLater⟩ := @writeBits_spec _ _ _ supplied
      res.toUInt32 32 (by omega) holdsMiddle
    rw [isMiddle]
    refine ⟨later, isLater, ?_⟩
    have width : bits.toNat = bits.toNat - 32 + 32 := by omega
    rw [isHigh, highWord_bits (by omega), word, lowWord_bits (by omega),
      List.append_assoc, ← bitsOf_add, ← width] at holdsLater
    exact holdsLater
  case isFalse oneWord =>
    rw [UInt32.lt_iff_toNat_lt, word] at oneWord
    obtain ⟨later, isLater, holdsLater⟩ := @writeBits_spec _ _ _ supplied
      res.toUInt32 bits (by omega) holds
    rw [lowWord_bits (by omega)] at holdsLater
    exact ⟨later, isLater, holdsLater⟩

theorem writeArray_spec
    (supplied : ∀ number, (cache number).isSome)
    {buf : List UInt8}
    (holds : stream.Holds written) :
    ∃ later, stream.WriteArray cache buf = (later, .S_OK ()) ∧
      later.Holds (written ++ bitsOfBytes buf) := by
  induction buf generalizing stream written with
  | nil =>
      refine ⟨stream, rfl, ?_⟩
      rw [bitsOfBytes, List.flatMap_nil, List.append_nil]
      exact holds
  | cons byte buf inductionHypothesis =>
      obtain ⟨middle, isMiddle, holdsMiddle⟩ := @writeBits_spec _ _ _ supplied
        byte.toUInt32 8 (by decide) holds
      obtain ⟨later, isLater, holdsLater⟩ := inductionHypothesis holdsMiddle
      have eight : (8 : UInt32).toNat = 8 := rfl
      rw [WriteArray, isMiddle]
      refine ⟨later, isLater, ?_⟩
      rw [bitsOfBytes, List.flatMap_cons, ← List.append_assoc]
      rw [eight, UInt8.toNat_toUInt32] at holdsLater
      exact holdsLater

/-! ## Counting what has been written -/

/-- The lengths of buffers, in bits. -/
theorem sum_lengths
    {buffers : List Buffer}
    (filled : ∀ buffer ∈ buffers, buffer.m_length = buffer.bytes.length) :
    (buffers.map fun buffer => 8 * buffer.m_length).sum =
      8 * ((buffers.flatMap Buffer.bytes).length : Int) := by
  induction buffers with
  | nil => rfl
  | cons buffer buffers inductionHypothesis =>
      rw [List.map_cons, List.sum_cons, List.flatMap_cons, List.length_append,
        inductionHypothesis fun other member =>
          filled other (List.mem_cons_of_mem buffer member),
        filled buffer List.mem_cons_self]
      push_cast
      omega

theorem Holds.bitsWritten
    (holds : stream.Holds written) :
    stream.BitsWritten = Int32.ofNat written.length := by
  obtain ⟨full, current, count, writing⟩ := holds
  have isPlace := writing.isPlace
  have lengths := congrArg List.length writing.bits
  have length : (current.m_payload.toList.take count).length = count := by
    rw [List.length_take, Vector.length_toList]
    exact Nat.min_eq_left writing.inside
  rw [length_bitsOfBytes, List.length_append, length, List.length_append,
    List.length_replicate] at lengths
  rw [BitsWritten, writing.buffers, writing.isCurrent, List.take_left,
    sum_lengths writing.filled, ← Int32.ofInt_eq_ofNat]
  congr 1
  omega

end Writing

end CLR_RT_HeapBlock_MemoryStream

end Streams

end NanoClr
