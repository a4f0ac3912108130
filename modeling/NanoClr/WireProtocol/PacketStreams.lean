import NanoClr.Library.Framing
import NanoClr.WireProtocol.Receiver

/-!
# The packets of a stream

What is to be found in the bytes that arrive, however they are cut: the packets
that begin with a marker, with a header that passes and a payload that passes.
-/

namespace NanoClr

namespace WireProtocol

/-! ## The same bytes at two places -/

/-- A header is read from its thirty-two bytes. -/
theorem readPacket_congr
    {memory memory' : Bytes}
    {address address' : Nat}
    (same : ∀ index < sizeofPacket,
      memory (address + index) = memory' (address' + index)) :
    readPacket memory address = readPacket memory' address' := by
  have shifted : ∀ offset, ∀ index < 4, offset + 4 ≤ sizeofPacket →
      memory (address + offset + index) =
        memory' (address' + offset + index) := by
    intro offset index below within
    simpa only [Nat.add_assoc] using same (offset + index) (by omega)
  have word : ∀ offset, offset + 4 ≤ sizeofPacket →
      readUInt32 memory (address + offset) =
        readUInt32 memory' (address' + offset) := fun offset within =>
    readUInt32_congr fun index below => shifted offset index below within
  have half : ∀ offset, offset + 4 ≤ sizeofPacket →
      readUInt16 memory (address + offset) =
        readUInt16 memory' (address' + offset) := fun offset within =>
    readUInt16_congr fun index below =>
      shifted offset index (by omega) within
  have signature : ∀ index : Fin 8,
      memory (address + index) = memory' (address' + index) := fun index =>
    same index (Nat.lt_trans index.isLt (by decide))
  simp only [readPacket, signature, word 8 (by decide), word 12 (by decide),
    word 16 (by decide), half 20 (by decide), half 22 (by decide),
    word 24 (by decide), word 28 (by decide)]

/-- The checksum of a payload is that of its bytes. -/
theorem payloadCrc_congr
    {memory memory' : Bytes}
    {address address' : Nat}
    {size : UInt32}
    (same : ∀ index < size.toNat,
      memory (address + index) = memory' (address' + index)) :
    payloadCrc memory address size = payloadCrc memory' address' size := by
  rw [payloadCrc, payloadCrc, computeCRC_congr same]

/-! ## Streams -/

/-- The bytes of a stream as a memory. -/
def memoryOf (bytes : List UInt8) : Bytes := fun address => bytes.getD address 0

/-- The header at the beginning of a stream. -/
def headerOf (stream : List UInt8) : WP_Packet :=
  readPacket (memoryOf stream) 0

/-- A stream begins like one of the markers. -/
def Marked (stream : List UInt8) : Prop :=
  stream.take sizeofSignature <+: MARKER_DEBUGGER_V1.toList ∨
    stream.take sizeofSignature <+: MARKER_PACKET_V1.toList

instance (stream : List UInt8) : Decidable (Marked stream) :=
  inferInstanceAs (Decidable (_ ∨ _))

/-- The number of bytes of the packet that a stream begins with. -/
def packetLength (stream : List UInt8) : Nat :=
  sizeofPacket + (headerOf stream).m_size.toNat

/-- The packet that a stream begins with, as it is handed over: with its header
checksum zeroed. -/
def messageOf (stream : List UInt8) : ReceivedMessage where
  m_header := { headerOf stream with m_crcHeader := 0 }
  payload := (stream.drop sizeofPacket).take (headerOf stream).m_size.toNat

section Streams

variable {stream : List UInt8}

theorem memoryOf_append
    (more : List UInt8)
    {address : Nat}
    (inside : address < stream.length) :
    memoryOf (stream ++ more) address = memoryOf stream address := by
  rw [memoryOf, memoryOf, List.getD_eq_getElem?_getD,
    List.getD_eq_getElem?_getD, List.getElem?_append_left inside]

/-- A header is known once its bytes have come. -/
theorem headerOf_append
    (whole : sizeofPacket ≤ stream.length)
    (more : List UInt8) :
    headerOf (stream ++ more) = headerOf stream := by
  apply readPacket_congr
  intro index below
  rw [Nat.zero_add]
  exact memoryOf_append more (Nat.lt_of_lt_of_le below whole)

/-- A stream that begins like a marker did so before. -/
theorem Marked.of_append
    {more : List UInt8}
    (marked : Marked (stream ++ more)) :
    Marked stream := by
  have shorter : stream.take sizeofSignature <+:
      (stream ++ more).take sizeofSignature :=
    List.prefix_take_iff.mpr
      ⟨(List.take_prefix _ stream).trans (List.prefix_append stream more),
        List.length_take_le _ stream⟩
  exact marked.imp shorter.trans shorter.trans

/-- A marker is known once its bytes have come. -/
theorem marked_append
    (whole : sizeofPacket ≤ stream.length)
    (more : List UInt8) :
    Marked (stream ++ more) ↔ Marked stream := by
  have enough : sizeofSignature ≤ stream.length :=
    Nat.le_trans (by decide) whole
  rw [Marked, Marked, List.take_append_of_le_length enough]

/-- A packet is known once its bytes have come. -/
theorem messageOf_append
    (whole : packetLength stream ≤ stream.length)
    (more : List UInt8) :
    messageOf (stream ++ more) = messageOf stream := by
  have header : sizeofPacket ≤ stream.length :=
    Nat.le_trans (Nat.le_add_right _ _) whole
  have payload : (headerOf stream).m_size.toNat ≤
      (stream.drop sizeofPacket).length := by
    rw [List.length_drop]
    exact Nat.le_sub_of_add_le' whole
  rw [messageOf, messageOf, headerOf_append header,
    List.drop_append_of_le_length header,
    List.take_append_of_le_length payload]

end Streams

/-! ## The packets that a device takes -/

namespace Device

variable (device : Device)

/-- A header that passes: its checksum is right, and its payload fits into the
buffer. -/
def TakesHeader (header : WP_Packet) : Prop :=
  (device.WP_IMPLEMENTS_CRC32 = true →
      header.m_crcHeader = header.zeroedCrc) ∧
    header.m_size.toNat ≤ device.sizeofReceptionBuffer

/-- A payload that passes. -/
def TakesPayload (message : ReceivedMessage) : Prop :=
  device.WP_IMPLEMENTS_CRC32 = true →
    payloadCrc (memoryOf message.payload) 0 message.m_header.m_size =
      message.m_header.m_crcData

instance (header : WP_Packet) : Decidable (device.TakesHeader header) :=
  inferInstanceAs (Decidable (_ ∧ _))

instance (message : ReceivedMessage) : Decidable (device.TakesPayload message) :=
  inferInstanceAs (Decidable (_ → _))

/-- What a stream begins with. -/
def packetVerdict (stream : List UInt8) : Verdict ReceivedMessage :=
  if ¬ Marked stream then
    .refused
  else if stream.length < sizeofPacket then
    .unfinished
  else if ¬ device.TakesHeader (headerOf stream) then
    .refused
  else if stream.length < packetLength stream then
    .unfinished
  else if device.TakesPayload (messageOf stream) then
    .frame (packetLength stream) (messageOf stream)
  else
    .refused

variable {device}
variable {stream : List UInt8}

theorem packetVerdict_unmarked (unmarked : ¬ Marked stream) :
    device.packetVerdict stream = .refused := by
  rw [packetVerdict, if_pos unmarked]

theorem packetVerdict_short
    (marked : Marked stream)
    (short : stream.length < sizeofPacket) :
    device.packetVerdict stream = .unfinished := by
  rw [packetVerdict, if_neg (not_not.mpr marked), if_pos short]

theorem packetVerdict_header
    (whole : sizeofPacket ≤ stream.length)
    (refused : ¬ device.TakesHeader (headerOf stream)) :
    device.packetVerdict stream = .refused := by
  by_cases marked : Marked stream
  · rw [packetVerdict, if_neg (not_not.mpr marked), if_neg whole.not_gt,
      if_pos refused]
  · exact packetVerdict_unmarked marked

theorem packetVerdict_open
    (marked : Marked stream)
    (whole : sizeofPacket ≤ stream.length)
    (taken : device.TakesHeader (headerOf stream))
    (short : stream.length < packetLength stream) :
    device.packetVerdict stream = .unfinished := by
  rw [packetVerdict, if_neg (not_not.mpr marked), if_neg whole.not_gt,
    if_neg (not_not.mpr taken), if_pos short]

/-- A packet that has come is decided by its payload. -/
theorem packetVerdict_whole
    (marked : Marked stream)
    (taken : device.TakesHeader (headerOf stream))
    (whole : packetLength stream ≤ stream.length) :
    device.packetVerdict stream =
      if device.TakesPayload (messageOf stream) then
        .frame (packetLength stream) (messageOf stream)
      else .refused := by
  have header : sizeofPacket ≤ stream.length :=
    Nat.le_trans (Nat.le_add_right _ _) whole
  rw [packetVerdict, if_neg (not_not.mpr marked), if_neg header.not_gt,
    if_neg (not_not.mpr taken), if_neg whole.not_gt]

theorem packetVerdict_nil : device.packetVerdict [] = .unfinished :=
  packetVerdict_short (Or.inl (List.nil_prefix)) (by decide)

/-- A packet has a length that the stream has. -/
theorem packetVerdict_frame
    {length : Nat}
    {message : ReceivedMessage}
    (isFrame : device.packetVerdict stream = .frame length message) :
    sizeofPacket ≤ length ∧ length ≤ stream.length := by
  rw [packetVerdict] at isFrame
  split at isFrame
  · cases isFrame
  split at isFrame
  · cases isFrame
  split at isFrame
  · cases isFrame
  split at isFrame
  · cases isFrame
  rename_i whole
  split at isFrame
  · cases isFrame
    exact ⟨Nat.le_add_right _ _, Nat.le_of_not_lt whole⟩
  · cases isFrame

/-- What is decided stays, whatever follows. -/
theorem packetVerdict_append
    (stream more : List UInt8)
    (decided : device.packetVerdict stream ≠ .unfinished) :
    device.packetVerdict (stream ++ more) = device.packetVerdict stream := by
  by_cases marked : Marked stream
  · by_cases short : stream.length < sizeofPacket
    · exact absurd (packetVerdict_short marked short) decided
    have header : sizeofPacket ≤ stream.length := Nat.le_of_not_lt short
    have header' : sizeofPacket ≤ (stream ++ more).length := by
      rw [List.length_append]
      exact Nat.le_trans header (Nat.le_add_right _ _)
    have sameHeader := headerOf_append header more
    by_cases taken : device.TakesHeader (headerOf stream)
    · by_cases short : stream.length < packetLength stream
      · exact absurd (packetVerdict_open marked header taken short) decided
      have whole : packetLength stream ≤ stream.length :=
        Nat.le_of_not_lt short
      have sameLength : packetLength (stream ++ more) = packetLength stream := by
        rw [packetLength, packetLength, sameHeader]
      have whole' : packetLength (stream ++ more) ≤
          (stream ++ more).length := by
        rw [sameLength, List.length_append]
        exact Nat.le_trans whole (Nat.le_add_right _ _)
      rw [packetVerdict_whole marked taken whole,
        packetVerdict_whole ((marked_append header more).mpr marked)
          (by rwa [sameHeader]) whole',
        sameLength, messageOf_append whole]
    · rw [packetVerdict_header header taken,
        packetVerdict_header header' (by rwa [sameHeader])]
  · have unmarked : ¬ Marked (stream ++ more) := fun marked' =>
      marked marked'.of_append
    rw [packetVerdict_unmarked marked, packetVerdict_unmarked unmarked]

theorem packetVerdict_positive
    (stream : List UInt8)
    (length : Nat)
    (message : ReceivedMessage)
    (isFrame : device.packetVerdict stream = .frame length message) :
    0 < length ∧ length ≤ stream.length := by
  obtain ⟨atLeast, fits⟩ := packetVerdict_frame isFrame
  exact ⟨Nat.lt_of_lt_of_le (by decide) atLeast, fits⟩

variable (device) in
/-- The packets of a stream that a device takes. -/
def packets : Framing UInt8 ReceivedMessage where
  verdict := device.packetVerdict
  verdict_nil := packetVerdict_nil
  length_frame := packetVerdict_positive
  stable := packetVerdict_append

/-- Fewer bytes than a header has are no packet. -/
theorem packets_short (short : stream.length < sizeofPacket) :
    device.packets.messages stream = [] :=
  Framing.messages_short
    (fun _ _ _ isFrame => (packetVerdict_frame isFrame).1) short

end Device

end WireProtocol

end NanoClr
