import NanoClr.Streams.BitRoundTrip

/-!
# Compressed numbers of the serializer

`CLR_RT_BinaryFormatter` writes lengths and indices to its stream in one, two
or four bytes.  The leading bits of the first byte tell how many there are.
-/

namespace NanoClr

namespace Serialization

open Arrays Streams

namespace CLR_RT_BinaryFormatter

open CLR_RT_HeapBlock_MemoryStream (Initialize write read write_spec read_spec
  runCalls_write initialize_holds readBits_spec)

/-- `WriteCompressedUnsigned`: one, two or four bytes by the size of the number,
whose first bits tell them apart. -/
def WriteCompressedUnsigned (cache : EventCache)
    (m_stream : CLR_RT_HeapBlock_MemoryStream) (val : UInt32) :
    CLR_RT_HeapBlock_MemoryStream × CallResult Unit :=
  if val = 0xFFFFFFFF then
    m_stream.WriteBits cache val 8
  else if val < 0x80 then
    m_stream.WriteBits cache val 8
  else if val < 0x3F00 then
    m_stream.WriteBits cache (val ||| 0x8000) 16
  else if val < 0x3F000000 then
    m_stream.WriteBits cache (val ||| 0xC0000000) 32
  else
    (m_stream, .failed .CLR_E_OUT_OF_RANGE)

/-- The bits that follow a first byte, by its leading two. -/
def extraBits (val : UInt32) : UInt32 :=
  match val &&& 0xC0 with
  | 0x00 => 0
  | 0x40 => 0
  | 0x80 => 8
  | 0xC0 => 24
  | _ => 0

/-- `ReadCompressedUnsigned`: the first byte tells how many bits follow. -/
def ReadCompressedUnsigned (m_stream : CLR_RT_HeapBlock_MemoryStream) :
    CLR_RT_HeapBlock_MemoryStream × CallResult UInt32 :=
  match m_stream.ReadBits 8 with
  | (m_stream, .S_OK val) =>
      if val = 0xFF then
        (m_stream, .S_OK 0xFFFFFFFF)
      else
        let bits := extraBits val
        if bits ≠ 0 then
          let read := m_stream.ReadBits bits
          (read.1, read.2.map fun extra =>
            (val &&& ~~~(0xC0 : UInt32)) <<< bits ||| extra)
        else
          (m_stream, .S_OK val)
  | failure => failure

/-- The values that are written. -/
def Compressible (val : UInt32) : Prop :=
  val < 0x3F000000 ∨ val = 0xFFFFFFFF

/-- The write of a value with its mark. -/
def compressedWrite (val : UInt32) : StreamWrite :=
  if val = 0xFFFFFFFF ∨ val < 0x80 then
    .number val ⟨8, by decide⟩
  else if val < 0x3F00 then
    .number (val ||| 0x8000) ⟨16, by decide⟩
  else
    .number (val ||| 0xC0000000) ⟨32, by decide⟩

section Compression

variable {cache : EventCache} {m_stream : CLR_RT_HeapBlock_MemoryStream}
  {val : UInt32} {written rest : List Bool}

theorem writeCompressedUnsigned_eq
    (compressible : Compressible val) :
    WriteCompressedUnsigned cache m_stream val =
      write cache m_stream (compressedWrite val) := by
  unfold WriteCompressedUnsigned compressedWrite
  by_cases isNull : val = 0xFFFFFFFF
  · rw [if_pos isNull, if_pos (Or.inl isNull)]
    rfl
  · have less : val < 0x3F000000 := compressible.resolve_right isNull
    rw [if_neg isNull, if_pos less]
    by_cases short : val < 0x80
    · rw [if_pos short, if_pos (Or.inr short)]
      rfl
    · rw [if_neg short, if_neg (not_or.mpr ⟨isNull, short⟩)]
      split
      · rfl
      · rfl

theorem writeCompressedUnsigned_outside
    (outside : ¬Compressible val) :
    WriteCompressedUnsigned cache m_stream val =
      (m_stream, .failed .CLR_E_OUT_OF_RANGE) := by
  obtain ⟨atLeast, notNull⟩ := not_or.mp outside
  rw [UInt32.lt_iff_toNat_lt] at atLeast
  have bound : (0x3F000000 : UInt32).toNat = 0x3F000000 := rfl
  have short : (0x80 : UInt32).toNat = 0x80 := rfl
  have middle : (0x3F00 : UInt32).toNat = 0x3F00 := rfl
  unfold WriteCompressedUnsigned
  rw [if_neg notNull, if_neg, if_neg, if_neg]
  · rwa [UInt32.lt_iff_toNat_lt]
  · rw [UInt32.lt_iff_toNat_lt]
    omega
  · rw [UInt32.lt_iff_toNat_lt]
    omega

/-! ## The marks -/

/-- A mark does not reach into the value below it. -/
theorem marked_toNat
    (width mark : Nat)
    {marks : UInt32}
    (isMark : marks.toNat = 2 ^ width * mark)
    (less : val.toNat < 2 ^ width) :
    (val ||| marks).toNat = 2 ^ width * mark + val.toNat := by
  rw [UInt32.toNat_or, isMark, Nat.or_comm, Nat.two_pow_add_eq_or_of_lt less]

/-- What is left of a first byte without its mark. -/
theorem unmarked_toNat
    (less : val.toNat < 256) :
    (val &&& ~~~(0xC0 : UInt32)).toNat = val.toNat % 64 := by
  have every : ∀ byte : Fin 256,
      (UInt32.ofNat byte.val &&& ~~~(0xC0 : UInt32)).toNat = byte.val % 64 := by
    decide +kernel
  have here := every ⟨val.toNat, less⟩
  rwa [UInt32.ofNat_toNat] at here

theorem extraBits_of_toNat
    (mark : Nat)
    (few : mark < 4)
    (atLeast : 64 * mark ≤ val.toNat)
    (less : val.toNat < 64 * mark + 64) :
    extraBits val = if mark = 2 then 8 else if mark = 3 then 24 else 0 := by
  have every : ∀ byte : Fin 256, extraBits (UInt32.ofNat byte.val) =
      if byte.val / 64 = 2 then 8 else if byte.val / 64 = 3 then 24 else 0 := by
    decide +kernel
  have here := every ⟨val.toNat, by omega⟩
  rw [UInt32.ofNat_toNat] at here
  have isMark : val.toNat / 64 = mark := by omega
  rwa [isMark] at here

/-- The rest of a value after its first part. -/
theorem joined_eq
    {high low bits : UInt32}
    {width : Nat}
    (isWidth : bits.toNat = width)
    (few : width < 32)
    (lowLess : low.toNat < 2 ^ width)
    (isVal : high.toNat * 2 ^ width + low.toNat = val.toNat) :
    high <<< bits ||| low = val := by
  have valLess := val.toNat_lt
  rw [← UInt32.toNat_inj, UInt32.toNat_or, UInt32.toNat_shiftLeft, isWidth,
    Nat.mod_eq_of_lt few, Nat.shiftLeft_eq, Nat.mod_eq_of_lt (by omega),
    Nat.mul_comm, ← Nat.two_pow_add_eq_or_of_lt lowLess, Nat.mul_comm, isVal]

/-! ## Reading -/

theorem readByte_spec
    {byte : Nat}
    (leaves : m_stream.Leaves (bitsOf 8 byte ++ rest)) :
    ∃ later first, m_stream.ReadBits 8 = (later, .S_OK first) ∧
      first.toNat = byte % 2 ^ 8 ∧ later.Leaves rest := by
  rw [← ofBits_bitsOf]
  have few : (8 : UInt32).toNat ≤ 32 := by decide
  exact readBits_spec few length_bitsOf leaves

/-- A value of one byte. -/
theorem readShort_spec
    {byte : Nat}
    (less : byte < 0x80)
    (isVal : val.toNat = byte)
    (leaves : m_stream.Leaves (bitsOf 8 byte ++ rest)) :
    ∃ later, ReadCompressedUnsigned m_stream = (later, .S_OK val) ∧
      later.Leaves rest := by
  obtain ⟨later, first, isLater, isFirst, leavesLater⟩ :=
    readByte_spec leaves
  rw [Nat.mod_eq_of_lt (by omega), ← isVal,
    UInt32.toNat_inj] at isFirst
  subst isFirst
  have notNull : first ≠ 0xFF := by
    rintro rfl
    exact absurd (isVal ▸ less) (by decide)
  have noExtra : extraBits first = 0 := by
    by_cases low : first.toNat < 64
    · exact extraBits_of_toNat 0 (by decide) (Nat.zero_le _) low
    · exact extraBits_of_toNat 1 (by decide) (by omega) (by omega)
  refine ⟨later, ?_, leavesLater⟩
  unfold ReadCompressedUnsigned
  rw [isLater]
  dsimp only
  rw [if_neg notNull, noExtra, if_neg (not_not_intro rfl)]

/-- A value with a mark and the bytes that follow the first. -/
theorem readMarked_spec
    (bits : UInt32)
    (low mark : Nat)
    (isLow : bits.toNat = low)
    (few : 0 < low ∧ low ≤ 24)
    (isMark : mark < 4)
    (isBits : (if mark = 2 then 8 else if mark = 3 then 24 else 0 : UInt32) =
      bits)
    (less : val.toNat < 63 * 2 ^ low)
    (leaves : m_stream.Leaves
      (bitsOf (8 + low) (2 ^ (low + 6) * mark + val.toNat) ++ rest)) :
    ∃ later, ReadCompressedUnsigned m_stream = (later, .S_OK val) ∧
      later.Leaves rest := by
  have positive := Nat.two_pow_pos low
  have isHigh : (2 ^ (low + 6) * mark + val.toNat) / 2 ^ low =
      64 * mark + val.toNat / 2 ^ low := by
    rw [Nat.pow_add, Nat.mul_assoc, Nat.mul_add_div positive]
  have highLess : val.toNat / 2 ^ low < 63 :=
    Nat.div_lt_of_lt_mul (Nat.mul_comm _ _ ▸ less)
  have isRest : (2 ^ (low + 6) * mark + val.toNat) % 2 ^ low =
      val.toNat % 2 ^ low := by
    rw [Nat.pow_add, Nat.mul_assoc, Nat.mul_add_mod]
  rw [bitsOf_add, List.append_assoc] at leaves
  obtain ⟨middle, first, isMiddle, isFirst, leavesMiddle⟩ :=
    readByte_spec leaves
  obtain ⟨later, extra, isLater, isExtra, leavesLater⟩ :=
    readBits_spec (isLow ▸ Nat.le_trans few.2 (by decide))
      (isLow ▸ length_bitsOf) leavesMiddle
  rw [Nat.shiftRight_eq_div_pow, isHigh, Nat.mod_eq_of_lt (by omega)] at isFirst
  rw [ofBits_bitsOf, isRest] at isExtra
  have atLeast : 64 * mark ≤ first.toNat := isFirst ▸ Nat.le_add_right _ _
  have atMost : first.toNat < 64 * mark + 63 :=
    isFirst ▸ Nat.add_lt_add_left highLess _
  have notNull : first ≠ 0xFF := by
    rintro rfl
    have isNull : (0xFF : UInt32).toNat = 255 := rfl
    omega
  have isExtraBits : extraBits first = bits :=
    (extraBits_of_toNat mark isMark (by omega) (by omega)).trans isBits
  have someBits : bits ≠ 0 := by
    rintro rfl
    exact absurd isLow (Nat.ne_of_lt few.1)
  have unmarked : (first &&& ~~~(0xC0 : UInt32)).toNat =
      val.toNat / 2 ^ low := by
    rw [unmarked_toNat (by omega), isFirst, Nat.mul_add_mod]
    exact Nat.mod_eq_of_lt (by omega)
  have isVal : (first &&& ~~~(0xC0 : UInt32)) <<< bits ||| extra = val := by
    apply joined_eq isLow (by omega)
    · rw [isExtra]
      exact Nat.mod_lt _ positive
    · rw [unmarked, isExtra]
      exact Nat.div_add_mod' val.toNat (2 ^ low)
  refine ⟨later, ?_, leavesLater⟩
  unfold ReadCompressedUnsigned
  rw [isMiddle]
  dsimp only
  rw [if_neg notNull, isExtraBits, if_pos someBits, isLater]
  dsimp only [CallResult.map]
  rw [isVal]

theorem readNull_spec
    (leaves : m_stream.Leaves (bitsOf 8 (0xFFFFFFFF : UInt32).toNat ++ rest)) :
    ∃ later, ReadCompressedUnsigned m_stream = (later, .S_OK 0xFFFFFFFF) ∧
      later.Leaves rest := by
  obtain ⟨later, first, isLater, isFirst, leavesLater⟩ :=
    readByte_spec leaves
  have isNull : first = 0xFF := by
    rw [← UInt32.toNat_inj, isFirst]
    rfl
  refine ⟨later, ?_, leavesLater⟩
  unfold ReadCompressedUnsigned
  rw [isLater]
  dsimp only
  rw [if_pos isNull]

/-- What has been written is read. -/
theorem readCompressedUnsigned_spec
    (compressible : Compressible val)
    (leaves : m_stream.Leaves ((compressedWrite val).written ++ rest)) :
    ∃ later, ReadCompressedUnsigned m_stream = (later, .S_OK val) ∧
      later.Leaves rest := by
  have short : (0x80 : UInt32).toNat = 0x80 := rfl
  have middle : (0x3F00 : UInt32).toNat = 0x3F00 := rfl
  have long : (0x3F000000 : UInt32).toNat = 0x3F000000 := rfl
  unfold compressedWrite at leaves
  split at leaves
  next oneByte =>
    rcases oneByte with rfl | less
    · exact readNull_spec leaves
    · exact readShort_spec (UInt32.lt_iff_toNat_lt.mp less) rfl leaves
  next notShort =>
    have less : val < 0x3F000000 :=
      compressible.resolve_right (not_or.mp notShort).1
    rw [UInt32.lt_iff_toNat_lt, long] at less
    split at leaves
    next isMiddle =>
      rw [UInt32.lt_iff_toNat_lt, middle] at isMiddle
      rw [StreamWrite.written,
        marked_toNat 14 2 rfl (by omega)] at leaves
      exact readMarked_spec 8 8 2 rfl (by decide)
        (by decide) rfl (by omega) leaves
    next isLong =>
      rw [StreamWrite.written,
        marked_toNat 30 3 rfl (by omega)] at leaves
      exact readMarked_spec 24 24 3 rfl
        (by decide) (by decide) rfl (by omega) leaves

/-- The first byte of a value that is not null is not that of null. -/
theorem firstByte_eq_iff
    (compressible : Compressible val)
    (leaves : m_stream.Leaves ((compressedWrite val).written ++ rest)) :
    (m_stream.ReadBits 8).2 = .S_OK 0xFF ↔ val = 0xFFFFFFFF := by
  obtain ⟨later, isLater, -⟩ := readCompressedUnsigned_spec compressible leaves
  constructor
  · intro isNull
    unfold ReadCompressedUnsigned at isLater
    split at isLater
    next read value isRead =>
      rw [isRead] at isNull
      injection isNull with isNull
      rw [if_pos isNull] at isLater
      injection isLater with _ isVal
      injection isVal with isVal
      exact isVal.symm
    next failure noValue =>
      exact (noValue (m_stream.ReadBits 8).1 0xFF (Prod.ext rfl isNull)).elim
  · rintro rfl
    obtain ⟨later, first, isLater, isFirst, -⟩ :=
      readByte_spec leaves
    have isNull : first = 0xFF := by
      rw [← UInt32.toNat_inj, isFirst]
      rfl
    rw [isLater, isNull]

/-- Whatever has been read, the next writes of what is left are read. -/
theorem runCalls_read
    {writes : List StreamWrite}
    (leaves : m_stream.Leaves (writes.flatMap StreamWrite.written ++ rest)) :
    (runCalls read m_stream (writes.map StreamWrite.corresponding)).1.Leaves
      rest := by
  induction writes generalizing m_stream with
  | nil => exact leaves
  | cons call writes inductionHypothesis =>
      rw [List.flatMap_cons, List.append_assoc] at leaves
      obtain ⟨later, isLater, leavesLater⟩ := read_spec leaves
      rw [List.map_cons, runCalls, isLater]
      exact inductionHypothesis leavesLater

/-- The bits that a value has been written with are as many as are taken from
those available to read it, and only the null marker starts with `0xFF`. -/
theorem compressedUnsigned_roundTrip
    (supplied : ∀ number, (cache number).isSome)
    (val : UInt32)
    (before after : List StreamWrite) :
    ∃ stream, Initialize cache none = .S_OK stream ∧
      let start := (runCalls (write cache) stream before).1
      let call := WriteCompressedUnsigned cache start val
      let rewound := (runCalls (write cache) call.1 after).1.Rewind
      let reached := (runCalls read rewound
        (before.map StreamWrite.corresponding)).1
      let answer := ReadCompressedUnsigned reached
      (call.2 = .S_OK () ↔ Compressible val) ∧
        (Compressible val →
          answer.2 = .S_OK val ∧
            reached.BitsAvailable - answer.1.BitsAvailable =
              call.1.BitsWritten - start.BitsWritten ∧
            answer.1.ReadsBack after ∧
            ((reached.ReadBits 8).2 = .S_OK 0xFF ↔ val = 0xFFFFFFFF)) := by
  obtain ⟨stream, isNew, holds⟩ := initialize_holds supplied
  refine ⟨stream, isNew, ?_⟩
  intro start call rewound reached answer
  have holdsStart := (runCalls_write supplied holds before).2
  rw [List.nil_append] at holdsStart
  by_cases compressible : Compressible val
  · obtain ⟨later, isCall, holdsCall⟩ :=
      write_spec supplied holdsStart (compressedWrite val)
    rw [← writeCompressedUnsigned_eq compressible] at isCall
    have isLater : call.1 = later := congrArg Prod.fst isCall
    have holdsLast := (runCalls_write supplied holdsCall after).2
    obtain ⟨free, leaves⟩ := holdsLast.rewind
    rw [← isLater, List.append_assoc, List.append_assoc] at leaves
    have leavesReached := runCalls_read leaves
    obtain ⟨last, isLast, leavesLast⟩ :=
      readCompressedUnsigned_spec compressible leavesReached
    have isAnswer : answer.1 = last := congrArg Prod.fst isLast
    refine ⟨⟨fun _ => compressible, fun _ => congrArg Prod.snd isCall⟩,
      fun _ => ⟨congrArg Prod.snd isLast, ?_, ?_, ?_⟩⟩
    · rw [isAnswer, isLater, leavesLast.bitsAvailable,
        leavesReached.bitsAvailable, holdsCall.bitsWritten,
        holdsStart.bitsWritten, List.length_append, List.length_append,
        Int32.ofNat_add, Int32.ofNat_add]
      simp [Int32.add_comm]
    · rw [isAnswer]
      exact leavesLast.readsBack
    · exact firstByte_eq_iff compressible leavesReached
  · refine ⟨⟨fun succeeds => ?_, fun inside => absurd inside compressible⟩,
      fun inside => absurd inside compressible⟩
    have fails : call.2 = .failed .CLR_E_OUT_OF_RANGE :=
      congrArg Prod.snd (writeCompressedUnsigned_outside compressible)
    rw [fails] at succeeds
    cases succeeds

end Compression

/-- A value of two bytes that does not start at a byte. -/
theorem compressedUnsigned_roundTrip_unaligned :
    ∃ stream, Initialize (fun _ => some (Vector.replicate _ 0xFF)) none =
        .S_OK stream ∧
      let cache : EventCache := fun _ => some (Vector.replicate _ 0xFF)
      let start :=
        (runCalls (write cache) stream [.number 5 ⟨3, by decide⟩]).1
      let call := WriteCompressedUnsigned cache start 0x3EFF
      let reached := (runCalls read call.1.Rewind [.number 3]).1
      call.2 = .S_OK () ∧
        (ReadCompressedUnsigned reached).2 = .S_OK 0x3EFF ∧
          (reached.ReadBits 8).2 ≠ .S_OK 0xFF := by
  obtain ⟨stream, isNew, succeeds, reads⟩ :=
    @compressedUnsigned_roundTrip (fun _ => some (Vector.replicate _ 0xFF))
      (fun _ => rfl) 0x3EFF
      [.number 5 ⟨3, by decide⟩] []
  have compressible : Compressible 0x3EFF := Or.inl (by decide)
  obtain ⟨isRead, -, -, isNull⟩ := reads compressible
  refine ⟨stream, isNew, succeeds.mpr compressible, isRead, ?_⟩
  intro startsWithNull
  exact absurd (isNull.mp startsWithNull) (by decide)

end CLR_RT_BinaryFormatter

end Serialization

end NanoClr
