import NanoClr.WireProtocol.PacketStreams

/-!
# The passes of the receiver

What a pass of the loop does in each state, where the bytes that are asked for
arrive at once or not at all.
-/

namespace NanoClr

namespace WireProtocol

/-! ## Memory -/

theorem storeBytes_nil (memory : Bytes) (address : Nat) :
    storeBytes memory address [] = memory := by
  funext place
  rw [storeBytes, if_neg]
  rintro ⟨above, below⟩
  exact absurd below (Nat.not_lt.mpr above)

theorem storeBytes_outside
    {memory : Bytes}
    {address place : Nat}
    {bytes : List UInt8}
    (outside : place < address ∨ address + bytes.length ≤ place) :
    storeBytes memory address bytes place = memory place := by
  rw [storeBytes, if_neg (by omega)]

theorem storeBytes_inside
    {memory : Bytes}
    {address index : Nat}
    {bytes : List UInt8}
    (inside : index < bytes.length) :
    storeBytes memory address bytes (address + index) = memoryOf bytes index := by
  rw [storeBytes, if_pos (by omega), Nat.add_sub_cancel_left, memoryOf]

@[simp] theorem length_bytesAt (memory : Bytes) (address length : Nat) :
    (bytesAt memory address length).length = length := by
  rw [bytesAt, List.length_map, List.length_range]

/-- The bytes that are stored are there. -/
theorem bytesAt_storeBytes
    (memory : Bytes)
    (address : Nat)
    (bytes : List UInt8) :
    bytesAt (storeBytes memory address bytes) address bytes.length = bytes := by
  apply List.ext_getElem (length_bytesAt _ _ _)
  intro index inside inside'
  simp only [bytesAt, List.getElem_map, List.getElem_range]
  rw [storeBytes_inside inside', memoryOf, List.getD_eq_getElem?_getD,
    List.getElem?_eq_getElem inside', Option.getD_some]

theorem bytesAt_take
    {length shorter : Nat}
    (memory : Bytes)
    (address : Nat)
    (within : shorter ≤ length) :
    (bytesAt memory address length).take shorter =
      bytesAt memory address shorter := by
  rw [bytesAt, bytesAt, ← List.map_take, List.take_range,
    Nat.min_eq_left within]

theorem memoryOf_bytesAt
    {memory : Bytes}
    {address length index : Nat}
    (inside : index < length) :
    memoryOf (bytesAt memory address length) index =
      memory (address + index) := by
  have inside' : index < (bytesAt memory address length).length := by
    rwa [length_bytesAt]
  rw [memoryOf, List.getD_eq_getElem?_getD, List.getElem?_eq_getElem inside',
    Option.getD_some]
  simp only [bytesAt, List.getElem_map, List.getElem_range]

/-- The header that is stored is read back. -/
theorem readPacket_storeBytes
    {memory : Bytes}
    {address : Nat}
    {header : List UInt8}
    (whole : header.length = sizeofPacket) :
    readPacket (storeBytes memory address header) address = headerOf header := by
  apply readPacket_congr
  intro index below
  rw [storeBytes_inside (whole ▸ below), Nat.zero_add]

/-- The checksum of a header is zeroed, and nothing else of it. -/
theorem readPacket_zeroed (memory : Bytes) (address : Nat) :
    readPacket (storeBytes memory (address + 8) [0, 0, 0, 0]) address =
      { readPacket memory address with m_crcHeader := 0 } := by
  have below : ∀ place < address + 8,
      storeBytes memory (address + 8) [0, 0, 0, 0] place = memory place :=
    fun place less => storeBytes_outside (Or.inl less)
  have above : ∀ place, address + 12 ≤ place →
      storeBytes memory (address + 8) [0, 0, 0, 0] place = memory place :=
    fun place more => storeBytes_outside (Or.inr more)
  have zero : ∀ index < 4,
      storeBytes memory (address + 8) [0, 0, 0, 0] (address + 8 + index) =
        0 := by
    intro index inside
    have one : index = 0 ∨ index = 1 ∨ index = 2 ∨ index = 3 := by omega
    rw [storeBytes_inside inside]
    rcases one with rfl | rfl | rfl | rfl <;> rfl
  have signature : ∀ index : Fin 8,
      storeBytes memory (address + 8) [0, 0, 0, 0] (address + index) =
        memory (address + index) := fun index => below _ (by omega)
  have crc : readUInt32 (storeBytes memory (address + 8) [0, 0, 0, 0])
      (address + 8) = 0 := by
    rw [readUInt32, readUInt16, readUInt16]
    have first := zero 0 (by decide)
    have second := zero 1 (by decide)
    have third := zero 2 (by decide)
    have fourth := zero 3 (by decide)
    simp only [Nat.add_assoc, Nat.reduceAdd] at first second third fourth
    simp only [Nat.add_assoc, Nat.reduceAdd, first, second, third, fourth]
    rfl
  have word : ∀ offset, 12 ≤ offset →
      readUInt32 (storeBytes memory (address + 8) [0, 0, 0, 0])
        (address + offset) = readUInt32 memory (address + offset) :=
    fun offset behind => readUInt32_congr fun index _ => above _ (by omega)
  have half : ∀ offset, 12 ≤ offset →
      readUInt16 (storeBytes memory (address + 8) [0, 0, 0, 0])
        (address + offset) = readUInt16 memory (address + offset) :=
    fun offset behind => readUInt16_congr fun index _ => above _ (by omega)
  simp only [readPacket, signature, crc, word 12 (by decide),
    word 16 (by decide), half 20 (by decide), half 22 (by decide),
    word 24 (by decide), word 28 (by decide)]
  rfl

/-! ## Receiving -/

theorem receiveBytes_none (receiver : Receiver) :
    WP_ReceiveBytes receiver [] = (receiver.m_size == 0, receiver) := by
  by_cases none_ : receiver.m_size = 0
  · rw [WP_ReceiveBytes, if_neg (not_not.mpr none_), none_]
    rfl
  · have some_ : ¬ [].length (α := UInt8) = receiver.m_size.toNat := by
      intro zero
      exact none_ (UInt16.toNat_inj.mp zero.symm)
    rw [WP_ReceiveBytes, if_pos none_, storeBytes_nil, decide_eq_false some_,
      beq_eq_false_iff_ne.mpr none_]
    simp

/-- All bytes that are asked for arrive. -/
theorem receiveBytes_all
    {receiver : Receiver}
    {received : List UInt8}
    (all : received.length = receiver.m_size.toNat) :
    WP_ReceiveBytes receiver received =
      (true,
        { receiver with
          memory := storeBytes receiver.memory receiver.m_pos received
          m_size := 0 }) := by
  have left : receiver.m_size - .ofNat received.length = 0 := by
    rw [all, UInt16.ofNat_toNat, UInt16.sub_self]
  by_cases none_ : receiver.m_size = 0
  · have empty : received = [] := by
      apply List.length_eq_zero_iff.mp
      rw [all, none_]
      rfl
    rw [WP_ReceiveBytes, if_neg (not_not.mpr none_), empty, storeBytes_nil,
      ← none_]
  · rw [WP_ReceiveBytes, if_pos none_, left, decide_eq_true all]

namespace Device

variable {device : Device}

/-- A header that begins with a marker is not moved. -/
theorem synchronize_marked
    {header : List UInt8}
    {receiver : Receiver}
    (whole : bytesAt receiver.memory device.m_header sizeofPacket = header)
    (marked : Marked header) :
    device.synchronize sizeofPacket receiver = (sizeofPacket, receiver, []) := by
  have first : header.take sizeofSignature =
      bytesAt receiver.memory device.m_header sizeofSignature := by
    rw [← whole, bytesAt_take _ _ (by decide)]
  have begins : device.isMarked receiver.memory sizeofPacket = true := by
    rw [isMarked, Bool.or_eq_true, decide_eq_true_iff, decide_eq_true_iff]
    rw [Marked, first] at marked
    exact marked.imp
      (fun starts => starts.eq_of_length (length_bytesAt _ _ _))
      (fun starts => starts.eq_of_length (length_bytesAt _ _ _))
  exact if_pos begins

/-! ## Passes -/

section Passes

variable {receiver : Receiver} {arrival : Arrival}

theorem process_begin (state : receiver.m_rxState = .Initialize) :
    device.process receiver arrival =
      { receiver with
        m_payload := NULL
        m_rxState := .WaitingForHeader
        m_pos := device.m_header
        m_size := .ofNat sizeofPacket : Receiver }.goesOn [] := by
  rw [process, state]

/-- Nothing arrives where a header is waited for. -/
theorem process_noHeader
    (state : receiver.m_rxState = .WaitingForHeader)
    (some_ : receiver.m_size ≠ 0)
    (nothing : arrival.received = []) :
    device.process receiver arrival =
      receiver.goesOn [⟨receiver.m_pos, 0⟩] := by
  simp only [process, state, nothing, receiveBytes_none,
    beq_eq_false_iff_ne.mpr some_]
  rfl

/-- A header arrives that begins with a marker. -/
theorem process_header
    (state : receiver.m_rxState = .WaitingForHeader)
    (position : receiver.m_pos = device.m_header)
    (size : receiver.m_size = .ofNat sizeofPacket)
    (whole : arrival.received.length = sizeofPacket)
    (marked : Marked arrival.received) :
    device.process receiver arrival =
      { receiver with
        memory := storeBytes receiver.memory device.m_header arrival.received
        m_size := 0
        m_rxState := .ReadingHeader : Receiver }.goesOn
          [⟨device.m_header, sizeofPacket⟩] := by
  obtain ⟨memory, payload, pos, bytesLeft, ticks, rxState⟩ := receiver
  obtain rfl : rxState = .WaitingForHeader := state
  obtain rfl : pos = device.m_header := position
  obtain rfl : bytesLeft = .ofNat sizeofPacket := size
  have received := @receiveBytes_all
    ⟨memory, payload, device.m_header, .ofNat sizeofPacket, ticks,
      .WaitingForHeader⟩ arrival.received whole
  have arrived : bytesAt (storeBytes memory device.m_header arrival.received)
      device.m_header sizeofPacket = arrival.received := by
    rw [← whole]
    exact bytesAt_storeBytes _ _ _
  have stays := @synchronize_marked device arrival.received
    ⟨storeBytes memory device.m_header arrival.received, payload,
      device.m_header, 0, ticks, .WaitingForHeader⟩ arrived marked
  have length : (.ofNat sizeofPacket - 0 : UInt16).toNat = sizeofPacket := rfl
  simp only [process, received, length, stays, whole]
  rfl

/-- The rest of a header of which nothing is left. -/
theorem process_restOfHeader
    (state : receiver.m_rxState = .ReadingHeader)
    (size : receiver.m_size = 0)
    (nothing : arrival.received = []) :
    device.process receiver arrival =
      { receiver with m_rxState := .CompleteHeader : Receiver }.goesOn
        [⟨receiver.m_pos, 0⟩] := by
  simp only [process, state, nothing, receiveBytes_none, size]
  rfl

theorem process_late
    (state : receiver.m_rxState = .ReadingPayload)
    (late : device.inTime receiver arrival.curTicks = false) :
    device.process receiver arrival =
      { receiver with m_rxState := .Initialize : Receiver }.goesOn [] := by
  simp only [process, state, late]
  rfl

/-- Nothing arrives where a payload is waited for. -/
theorem process_noPayload
    (state : receiver.m_rxState = .ReadingPayload)
    (inTime : device.inTime receiver arrival.curTicks = true)
    (some_ : receiver.m_size ≠ 0)
    (nothing : arrival.received = []) :
    device.process receiver arrival =
      { receiver with m_payloadTicks := arrival.curTicks : Receiver }.goesOn
        [⟨receiver.m_pos, 0⟩] := by
  simp only [process, state, inTime, nothing, receiveBytes_none,
    beq_eq_false_iff_ne.mpr some_]
  rfl

/-- A payload arrives. -/
theorem process_payload
    (state : receiver.m_rxState = .ReadingPayload)
    (inTime : device.inTime receiver arrival.curTicks = true)
    (all : arrival.received.length = receiver.m_size.toNat) :
    device.process receiver arrival =
      { receiver with
        memory := storeBytes receiver.memory receiver.m_pos arrival.received
        m_size := 0
        m_payloadTicks := arrival.curTicks
        m_rxState := .CompletePayload : Receiver }.goesOn
          [⟨receiver.m_pos, arrival.received.length⟩] := by
  obtain ⟨memory, payload, pos, bytesLeft, ticks, rxState⟩ := receiver
  obtain rfl : rxState = .ReadingPayload := state
  have received := @receiveBytes_all
    ⟨memory, payload, pos, bytesLeft, arrival.curTicks, .ReadingPayload⟩
    arrival.received all
  simp only [process, inTime, received]
  rfl

end Passes

/-! ## Complete headers and payloads -/

/-- The header checksum is right exactly where it is found to be. -/
def ChecksExactly (device : Device) (header : WP_Packet) : Prop :=
  device.WP_IMPLEMENTS_CRC32 = true →
    (header.zeroedCrc = 0 ↔ header.m_crcHeader = header.zeroedCrc)

instance (header : WP_Packet) : Decidable (device.ChecksExactly header) :=
  inferInstanceAs (Decidable (_ → _))

/-- The buffer is prepared for the headers that pass. -/
theorem prepared_eq
    {header : WP_Packet}
    (exactly : device.ChecksExactly header) :
    (if device.verifiesHeader header then
        device.WP_App_ProcessHeader header else none) =
      if device.TakesHeader header then some device.receptionBuffer
      else none := by
  have verifies : device.verifiesHeader header = true ↔
      (device.WP_IMPLEMENTS_CRC32 = true →
        header.m_crcHeader = header.zeroedCrc) := by
    rw [verifiesHeader]
    split
    · rename_i checks
      rw [verifyHeader_accepts, exactly checks]
      exact ⟨fun right _ => right, fun right => right checks⟩
    · rename_i checks
      exact iff_of_true rfl fun checks' => absurd checks' checks
  by_cases passes : device.verifiesHeader header = true
  · rw [if_pos passes, WP_App_ProcessHeader]
    by_cases large : device.sizeofReceptionBuffer < header.m_size.toNat
    · rw [if_pos large, if_neg fun taken => absurd taken.2 large.not_ge]
    · rw [if_neg large, if_pos ⟨verifies.mp passes, Nat.le_of_not_lt large⟩]
  · rw [if_neg passes, if_neg fun taken => passes (verifies.mpr taken.1)]

/-- The receiver once the checksum of the header is zeroed. -/
def zeroed (device : Device) (receiver : Receiver) : Receiver :=
  { receiver with
    memory := storeBytes receiver.memory (device.m_header + 8) [0, 0, 0, 0] }

section Complete

variable
  {receiver : Receiver}
  {curTicks : UInt64}

/-- A payload is to come. -/
theorem completeHeader_payload
    (exactly : device.ChecksExactly
      (readPacket receiver.memory device.m_header))
    (taken : device.TakesHeader (readPacket receiver.memory device.m_header))
    (some_ : (readPacket receiver.memory device.m_header).m_size ≠ 0) :
    device.completeHeader receiver curTicks =
      { device.zeroed receiver with
        m_payload := device.receptionBuffer
        m_payloadTicks := curTicks
        m_rxState := .ReadingPayload
        m_pos := device.receptionBuffer
        m_size :=
          (readPacket receiver.memory
            device.m_header).m_size.toUInt16 : Receiver }.goesOn
          [⟨device.m_header + 8, 4⟩] := by
  simp only [completeHeader, prepared_eq exactly, if_pos taken, if_pos some_,
    if_neg device.notNull]
  rfl

/-- No payload is to come. -/
theorem completeHeader_noPayload
    (exactly : device.ChecksExactly
      (readPacket receiver.memory device.m_header))
    (taken : device.TakesHeader (readPacket receiver.memory device.m_header))
    (none_ : (readPacket receiver.memory device.m_header).m_size = 0) :
    device.completeHeader receiver curTicks =
      { device.zeroed receiver with
        m_payload := device.receptionBuffer
        m_rxState := .CompletePayload : Receiver }.goesOn
          [⟨device.m_header + 8, 4⟩] := by
  simp only [completeHeader, prepared_eq exactly, if_pos taken,
    if_neg (not_not.mpr none_)]
  rfl

/-- A header that does not pass is given up. -/
theorem completeHeader_refused
    (exactly : device.ChecksExactly
      (readPacket receiver.memory device.m_header))
    (refused :
      ¬ device.TakesHeader (readPacket receiver.memory device.m_header)) :
    (device.completeHeader receiver curTicks).receiver =
        { device.zeroed receiver with m_rxState := .Initialize } ∧
      (device.completeHeader receiver curTicks).stored =
        [⟨device.m_header + 8, 4⟩] ∧
      (device.completeHeader receiver curTicks).delivered = none := by
  rw [completeHeader]
  simp only [prepared_eq exactly, if_neg refused]
  exact ⟨rfl, trivial, trivial⟩

/-- The message of a receiver whose payload has come. -/
def messageIn (device : Device) (receiver : Receiver) :
    ReceivedMessage :=
  let m_header := readPacket receiver.memory device.m_header
  ⟨m_header, bytesAt receiver.memory receiver.m_payload m_header.m_size.toNat⟩

theorem verifiesPayload_iff (prepared : receiver.m_payload ≠ NULL) :
    device.verifiesPayload receiver.memory
        ⟨readPacket receiver.memory device.m_header, receiver.m_payload⟩ =
          true ↔
      device.TakesPayload (device.messageIn receiver) := by
  have null : (receiver.m_payload == NULL) = false :=
    beq_eq_false_iff_ne.mpr prepared
  rw [verifiesPayload, TakesPayload]
  split
  · rename_i checks
    have same : payloadCrc receiver.memory receiver.m_payload
          (readPacket receiver.memory device.m_header).m_size =
        payloadCrc (memoryOf (device.messageIn receiver).payload) 0
          (device.messageIn receiver).m_header.m_size := by
      apply payloadCrc_congr
      intro index inside
      rw [Nat.zero_add]
      exact (memoryOf_bytesAt inside).symm
    rw [WP_Message_VerifyPayload, null, Bool.false_and, if_neg Bool.false_ne_true,
      beq_iff_eq, same]
    exact ⟨fun right _ => right, fun right => right checks⟩
  · rename_i checks
    rw [null, Bool.false_and]
    exact iff_of_true rfl fun checks' => absurd checks' checks

/-- A payload that passes is handed over, with its header. -/
theorem completePayload_eq (prepared : receiver.m_payload ≠ NULL) :
    (device.completePayload receiver).receiver =
        { receiver with m_rxState := .Initialize } ∧
      (device.completePayload receiver).stored = [] ∧
      (device.completePayload receiver).delivered =
        if device.TakesPayload (device.messageIn receiver) then
          some (device.messageIn receiver)
        else none := by
  have verifies := @verifiesPayload_iff device receiver prepared
  rw [completePayload]
  by_cases taken : device.TakesPayload (device.messageIn receiver)
  · rw [if_pos (verifies.mpr taken), if_pos taken]
    exact ⟨rfl, rfl, rfl⟩
  · rw [if_neg fun passes => taken (verifies.mp passes), if_neg taken]
    exact ⟨rfl, rfl, rfl⟩

end Complete

end Device

end WireProtocol

end NanoClr
