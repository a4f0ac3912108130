import NanoClr.Library.CallRuns
import NanoClr.Streams.ReadBits

/-!
# The bit stream round trip

Numbers and arrays that are written to a stream are read from it again, each
number cut to its bits.
-/

namespace NanoClr

namespace Streams

open Arrays

/-- A number of bits of a word of at most so many. -/
abbrev Width (most : UInt32) :=
  { bits : UInt32 // bits ≤ most }

/-- The calls that write to a stream. -/
inductive StreamWrite where
  | number (val : UInt32) (bits : Width 32)
  | number64 (res : UInt64) (bits : Width 64)
  | array (buf : List UInt8)

/-- The calls that read from it. -/
inductive StreamRead where
  | number (bits : UInt32)
  | number64 (bits : UInt32)
  | array (bytes : Nat)

/-- What is read. -/
inductive StreamValue where
  | number (val : UInt32)
  | number64 (res : UInt64)
  | array (buf : List UInt8)

namespace StreamWrite

/-- The number of bits that are written. -/
def width : StreamWrite → Nat
  | number _ bits => bits.val.toNat
  | number64 _ bits => bits.val.toNat
  | array buf => 8 * buf.length

/-- The call that reads what has been written. -/
def corresponding : StreamWrite → StreamRead
  | number _ bits => .number bits.val
  | number64 _ bits => .number64 bits.val
  | array buf => .array buf.length

/-- What has been written, numbers modulo their number of bits. -/
def truncated : StreamWrite → StreamValue
  | number val bits =>
      .number (UInt32.ofNat (val.toNat % 2 ^ bits.val.toNat))
  | number64 res bits =>
      .number64 (UInt64.ofNat (res.toNat % 2 ^ bits.val.toNat))
  | array buf => .array buf

/-- The bits that are written. -/
def written : StreamWrite → List Bool
  | number val bits => bitsOf bits.val.toNat val.toNat
  | number64 res bits => bitsOf bits.val.toNat res.toNat
  | array buf => bitsOfBytes buf

theorem length_written {write : StreamWrite} :
    write.written.length = write.width := by
  cases write with
  | number val bits => exact length_bitsOf
  | number64 res bits => exact length_bitsOf
  | array buf => exact length_bitsOfBytes

end StreamWrite

namespace CLR_RT_HeapBlock_MemoryStream

/-- What a call writes. -/
def write (cache : EventCache) (stream : CLR_RT_HeapBlock_MemoryStream) :
    StreamWrite → CLR_RT_HeapBlock_MemoryStream × CallResult Unit
  | .number val bits => stream.WriteBits cache val bits.val
  | .number64 res bits => stream.WriteBits64 cache res bits.val
  | .array buf => stream.WriteArray cache buf

/-- What a call reads. -/
def read (stream : CLR_RT_HeapBlock_MemoryStream) :
    StreamRead → CLR_RT_HeapBlock_MemoryStream × CallResult StreamValue
  | .number bits =>
      let read := stream.ReadBits bits
      (read.1, read.2.map .number)
  | .number64 bits =>
      let read := stream.ReadBits64 bits
      (read.1, read.2.map .number64)
  | .array bytes =>
      let read := stream.ReadArray bytes
      (read.1, read.2.map .array)

/-- The reads that correspond to some writes give back what has been written,
and each takes its number of bits from those that are available. -/
def ReadsBack (stream : CLR_RT_HeapBlock_MemoryStream) :
    List StreamWrite → Prop
  | [] => True
  | write :: writes =>
      let after := stream.read write.corresponding
      after.2 = .S_OK write.truncated ∧
        after.1.BitsAvailable =
            stream.BitsAvailable - Int32.ofNat write.width ∧
          after.1.ReadsBack writes

section RoundTrip

variable {cache : EventCache} {stream : CLR_RT_HeapBlock_MemoryStream}
  {written : List Bool}

theorem write_spec
    (supplied : ∀ number, (cache number).isSome)
    (holds : stream.Holds written)
    (call : StreamWrite) :
    ∃ later, stream.write cache call = (later, .S_OK ()) ∧
      later.Holds (written ++ call.written) := by
  cases call with
  | number val bits =>
      exact writeBits_spec supplied (UInt32.le_iff_toNat_le.mp bits.property)
        holds
  | number64 res bits =>
      exact writeBits64_spec supplied (UInt32.le_iff_toNat_le.mp bits.property)
        holds
  | array buf => exact writeArray_spec supplied holds

theorem runCalls_write
    (supplied : ∀ number, (cache number).isSome)
    (holds : stream.Holds written)
    (writes : List StreamWrite) :
    (runCalls (write cache) stream writes).2 = writes.map (fun _ => .S_OK ()) ∧
      (runCalls (write cache) stream writes).1.Holds
        (written ++ writes.flatMap StreamWrite.written) := by
  induction writes generalizing stream written with
  | nil =>
      rw [List.flatMap_nil, List.append_nil]
      exact ⟨rfl, holds⟩
  | cons call writes inductionHypothesis =>
      obtain ⟨later, isLater, holdsLater⟩ := write_spec supplied holds call
      obtain ⟨results, holdsLast⟩ := inductionHypothesis holdsLater
      rw [runCalls, isLater]
      rw [List.append_assoc, ← List.flatMap_cons] at holdsLast
      refine ⟨?_, holdsLast⟩
      rw [List.map_cons, ← results]

theorem read_spec
    {call : StreamWrite}
    {rest : List Bool}
    (leaves : stream.Leaves (call.written ++ rest)) :
    ∃ later, stream.read call.corresponding = (later, .S_OK call.truncated) ∧
      later.Leaves rest := by
  cases call with
  | number val bits =>
      obtain ⟨later, read, isLater, isRead, leavesLater⟩ := readBits_spec
        (UInt32.le_iff_toNat_le.mp bits.property) length_bitsOf leaves
      have isTruncated : read =
          UInt32.ofNat (val.toNat % 2 ^ bits.val.toNat) := by
        rw [← ofBits_bitsOf, ← isRead, UInt32.ofNat_toNat]
      rw [StreamWrite.corresponding, CLR_RT_HeapBlock_MemoryStream.read,
        isLater, isTruncated]
      exact ⟨later, rfl, leavesLater⟩
  | number64 res bits =>
      obtain ⟨later, read, isLater, isRead, leavesLater⟩ := readBits64_spec
        (UInt32.le_iff_toNat_le.mp bits.property) length_bitsOf leaves
      have isTruncated : read =
          UInt64.ofNat (res.toNat % 2 ^ bits.val.toNat) := by
        rw [← ofBits_bitsOf, ← isRead, UInt64.ofNat_toNat]
      rw [StreamWrite.corresponding, CLR_RT_HeapBlock_MemoryStream.read,
        isLater, isTruncated]
      exact ⟨later, rfl, leavesLater⟩
  | array buf =>
      obtain ⟨later, isLater, leavesLater⟩ := readArray_spec leaves
      rw [StreamWrite.corresponding, CLR_RT_HeapBlock_MemoryStream.read,
        isLater]
      exact ⟨later, rfl, leavesLater⟩

theorem Leaves.readsBack
    {writes : List StreamWrite}
    {rest : List Bool}
    (leaves : stream.Leaves (writes.flatMap StreamWrite.written ++ rest)) :
    stream.ReadsBack writes := by
  induction writes generalizing stream with
  | nil => trivial
  | cons call writes inductionHypothesis =>
      rw [List.flatMap_cons, List.append_assoc] at leaves
      obtain ⟨later, isLater, leavesLater⟩ := read_spec leaves
      rw [ReadsBack, isLater]
      refine ⟨rfl, ?_, inductionHypothesis leavesLater⟩
      rw [leavesLater.bitsAvailable, leaves.bitsAvailable,
        @List.length_append _ call.written, StreamWrite.length_written,
        Nat.add_comm, Int32.ofNat_add]
      exact (Int32.add_sub_cancel _ _).symm

theorem length_flatMap_written (writes : List StreamWrite) :
    (writes.flatMap StreamWrite.written).length =
      (writes.map StreamWrite.width).sum := by
  rw [List.length_flatMap]
  congr 1
  apply List.map_congr_left
  intro call _
  exact StreamWrite.length_written

/-- A new stream is empty. -/
theorem initialize_holds
    (supplied : ∀ number, (cache number).isSome) :
    ∃ stream, Initialize cache none = .S_OK stream ∧ stream.Holds [] := by
  obtain ⟨payload, isPayload⟩ := Option.isSome_iff_exists.mp (supplied 0)
  have isNew : NewBuffer cache ⟨[], 0, -1, 0⟩ =
      some ⟨[⟨none, 0, payload⟩], 0, -1, 0⟩ := by
    unfold NewBuffer
    dsimp only [List.length_nil]
    rw [isPayload]
    rfl
  unfold Initialize
  rw [isNew]
  refine ⟨_, rfl, [], ⟨none, 0, payload⟩, 0, ?_⟩
  constructor
  · rfl
  · rfl
  · rfl
  · exact Nat.zero_le _
  · rfl
  · rfl
  · exact nofun
  · exact Nat.zero_le _
  · exact fun notZero => absurd rfl notZero
  · rw [List.take_zero]
    rfl

/-- Whatever is written to a new stream, as many bits have been written as it
takes, and it is read back after rewinding. -/
theorem bits_roundTrip
    (supplied : ∀ number, (cache number).isSome)
    (writes : List StreamWrite) :
    ∃ stream, Initialize cache none = .S_OK stream ∧
      (runCalls (write cache) stream writes).2 =
          writes.map (fun _ => .S_OK ()) ∧
        (runCalls (write cache) stream writes).1.BitsWritten =
            Int32.ofNat (writes.map StreamWrite.width).sum ∧
          (runCalls (write cache) stream writes).1.Rewind.ReadsBack writes := by
  obtain ⟨stream, isNew, holds⟩ := initialize_holds supplied
  obtain ⟨results, holdsLast⟩ := runCalls_write supplied holds writes
  rw [List.nil_append] at holdsLast
  obtain ⟨free, leaves⟩ := holdsLast.rewind
  refine ⟨stream, isNew, results, ?_, leaves.readsBack⟩
  rw [holdsLast.bitsWritten, length_flatMap_written]

end RoundTrip

/-- A number, an array that does not start at a byte and goes on in a second
buffer, and a long number. -/
def acrossBuffers : List StreamWrite :=
  [.number 21 ⟨5, by decide⟩, .array (List.replicate 500 0xA5),
    .number64 1 ⟨40, by decide⟩]

theorem bits_roundTrip_acrossBuffers :
    ∃ stream, Initialize (fun _ => some (Vector.replicate _ 0xFF)) none =
        .S_OK stream ∧
      (runCalls (write fun _ => some (Vector.replicate _ 0xFF)) stream
          acrossBuffers).2 = [.S_OK (), .S_OK (), .S_OK ()] ∧
        (runCalls (write fun _ => some (Vector.replicate _ 0xFF)) stream
          acrossBuffers).1.BitsWritten = 4045 ∧
          (runCalls (write fun _ => some (Vector.replicate _ 0xFF)) stream
            acrossBuffers).1.Rewind.ReadsBack acrossBuffers := by
  have bits : (acrossBuffers.map StreamWrite.width).sum = 4045 := by
    have width : (StreamWrite.array (List.replicate 500 0xA5)).width = 4000 := by
      rw [StreamWrite.width, List.length_replicate]
    rw [acrossBuffers, List.map_cons, List.map_cons, List.map_singleton, width]
    rfl
  have both := @bits_roundTrip (fun _ => some (Vector.replicate _ 0xFF))
    (fun _ => rfl) acrossBuffers
  rw [bits] at both
  exact both

end CLR_RT_HeapBlock_MemoryStream

end Streams

end NanoClr
