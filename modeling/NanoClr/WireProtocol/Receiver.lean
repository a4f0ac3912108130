import NanoClr.WireProtocol.Message

/-!
# The receiver of wire protocol messages

`WP_Message_Process` takes the bytes that the transport delivers, waits for the
marker of a header, and hands over messages with their payloads.
-/

namespace NanoClr

namespace WireProtocol

/-! ## Memory -/

/-- So many bytes from an address on. -/
def bytesAt (memory : Bytes) (address length : Nat) : List UInt8 :=
  (List.range length).map fun index => memory (address + index)

/-- Bytes are stored from an address on. -/
def storeBytes (memory : Bytes) (address : Nat) (bytes : List UInt8) : Bytes :=
  fun place =>
    if address ≤ place ∧ place < address + bytes.length then
      bytes.getD (place - address) 0
    else
      memory place

/-- `sizeof(WP_Packet)` -/
def sizeofPacket : Nat := 32

/-- `sizeof(m_signature)` -/
def sizeofSignature : Nat := 8

/-- The header in memory, words with their low byte first. -/
def readPacket (memory : Bytes) (address : Nat) : WP_Packet where
  m_signature := .ofFn fun index => memory (address + index)
  m_crcHeader := .ofNat (readUInt32 memory (address + 8))
  m_crcData := .ofNat (readUInt32 memory (address + 12))
  m_cmd := .ofNat (readUInt32 memory (address + 16))
  m_seq := .ofNat (readUInt16 memory (address + 20))
  m_seqReply := .ofNat (readUInt16 memory (address + 22))
  m_flags := .ofNat (readUInt32 memory (address + 24))
  m_size := .ofNat (readUInt32 memory (address + 28))

/-- Bytes that are written: their place and their number. -/
structure Span where
  address : Nat
  length : Nat
deriving DecidableEq

/-! ## The receiver -/

/-- `ReceiveState`. -/
inductive ReceiveState where
  | Idle
  | Initialize
  | WaitingForHeader
  | ReadingHeader
  | CompleteHeader
  | ReadingPayload
  | CompletePayload
deriving DecidableEq

/-- The marker `NFDBGV1`, with the zero at its end. -/
def MARKER_DEBUGGER_V1 : Vector UInt8 8 :=
  #v[0x4E, 0x46, 0x44, 0x42, 0x47, 0x56, 0x31, 0x00]

/-- The flag of a message that needs no reply. -/
def WP_Flags_c_NonCritical : UInt32 := 0x0001

/-- The flag of a reply to a bad header. -/
def WP_Flags_c_BadHeader : UInt32 := 0x0004

/-- The flag of a reply to a bad payload. -/
def WP_Flags_c_BadPayload : UInt32 := 0x0008

/-- The flag of a reply that refuses. -/
def WP_Flags_c_NACK : UInt32 := 0x4000

/-- Five seconds. -/
def c_PayloadTimeout : UInt64 := 50000000

/-- The device: where the header of its message and its buffer for payloads
lie, whether it is built with checksums, and its clock. -/
structure Device where
  m_header : Nat
  receptionBuffer : Nat
  sizeofReceptionBuffer : Nat
  WP_IMPLEMENTS_CRC32 : Bool
  HAL_Time_SysTicksToTime_C : UInt32 → UInt64
  notNull : receptionBuffer ≠ NULL
  small : sizeofReceptionBuffer < 2 ^ 16
  apart : m_header + sizeofPacket ≤ receptionBuffer ∨
    receptionBuffer + sizeofReceptionBuffer ≤ m_header

/-- The memory and the state of a message; its header is in the memory. -/
structure Receiver where
  memory : Bytes
  m_payload : Nat
  m_pos : Nat
  m_size : UInt16
  m_payloadTicks : UInt64
  m_rxState : ReceiveState

/-- What a pass of the loop finds: the bytes that the transport delivers, and
the time. -/
structure Arrival where
  received : List UInt8
  curTicks : UInt64

/-- A message as it is handed over. -/
structure ReceivedMessage where
  m_header : WP_Packet
  payload : List UInt8
deriving DecidableEq

/-- What a pass of the loop does: the receiver behind it, what it stored, the
flags of a reply that refuses, and a message that it handed over. -/
structure Pass where
  receiver : Receiver
  stored : List Span
  replied : Option UInt32
  delivered : Option ReceivedMessage

/-- A pass that replies and hands over nothing. -/
def Receiver.goesOn (receiver : Receiver) (stored : List Span) : Pass :=
  ⟨receiver, stored, none, none⟩

/-- `WP_ReceiveBytes`: whether all bytes arrived that were asked for. The
pointer that it advances is its own. -/
def WP_ReceiveBytes (receiver : Receiver) (received : List UInt8) :
    Bool × Receiver :=
  if receiver.m_size ≠ 0 then
    (decide (received.length = receiver.m_size.toNat),
      { receiver with
        memory := storeBytes receiver.memory receiver.m_pos received
        m_size := receiver.m_size - .ofNat received.length })
  else
    (true, receiver)

/-- More bytes are waited for. -/
def Receiver.waits (receiver : Receiver) : Bool :=
  match receiver.m_rxState with
  | .WaitingForHeader | .ReadingHeader | .ReadingPayload => receiver.m_size ≠ 0
  | _ => false

/-- `WP_Message_PrepareReception`. -/
def WP_Message_PrepareReception (receiver : Receiver) : Receiver :=
  { receiver with m_rxState := .Initialize }

namespace Device

variable (device : Device)

/-- `WP_Message_Initialize`: the header is cleared. -/
def WP_Message_Initialize (receiver : Receiver) : Receiver where
  memory := storeBytes receiver.memory device.m_header
    (List.replicate sizeofPacket 0)
  m_payload := NULL
  m_pos := NULL
  m_size := 0
  m_payloadTicks := 0
  m_rxState := .Idle

/-- Whether the header begins like one of the markers, as far as it has come. -/
def isMarked (memory : Bytes) (len : Nat) : Bool :=
  let lenCmp := min len sizeofSignature
  bytesAt memory device.m_header lenCmp =
      MARKER_DEBUGGER_V1.toList.take lenCmp ||
    bytesAt memory device.m_header lenCmp = MARKER_PACKET_V1.toList.take lenCmp

/-- The loop that moves the header down until it begins like a marker: what is
left of it, the receiver, and what was stored. -/
def synchronize : Nat → Receiver → Nat × Receiver × List Span
  | 0, receiver => (0, receiver, [])
  | len + 1, receiver =>
      if device.isMarked receiver.memory (len + 1) then
        (len + 1, receiver, [])
      else
        let memory := storeBytes receiver.memory device.m_header
          (bytesAt receiver.memory (device.m_header + 1) len)
        let rest := synchronize len
          { receiver with
            memory
            m_pos := receiver.m_pos - 1
            m_size := receiver.m_size + 1 }
        (rest.1, rest.2.1, ⟨device.m_header, len⟩ :: rest.2.2)

/-- `WP_Message_VerifyHeader`, with checksums or without. -/
def verifiesHeader (header : WP_Packet) : Bool :=
  if device.WP_IMPLEMENTS_CRC32 then
    (WP_Message_VerifyHeader ⟨header, NULL⟩).1
  else
    true

/-- `WP_Message_VerifyPayload`, with checksums or without. -/
def verifiesPayload (memory : Bytes) (message : WP_Message) : Bool :=
  if device.WP_IMPLEMENTS_CRC32 then
    WP_Message_VerifyPayload memory message
  else
    !(message.m_payload == NULL && message.m_header.m_size != 0)

/-- `WP_App_ProcessHeader`: the buffer, if it is large enough. -/
def WP_App_ProcessHeader (header : WP_Packet) : Option Nat :=
  if device.sizeofReceptionBuffer < header.m_size.toNat then none
  else some device.receptionBuffer

/-- A header is complete: the checksum is zeroed while it is verified. -/
def completeHeader (receiver : Receiver) (curTicks : UInt64) : Pass :=
  let header := readPacket receiver.memory device.m_header
  let receiver :=
    { receiver with
      memory := storeBytes receiver.memory (device.m_header + 8) [0, 0, 0, 0] }
  let stored := [⟨device.m_header + 8, 4⟩]
  match (if device.verifiesHeader header then
      device.WP_App_ProcessHeader header else none) with
  | some m_payload =>
      if header.m_size ≠ 0 then
        if m_payload = NULL then
          { receiver with m_payload, m_rxState := .Initialize }.goesOn stored
        else
          { receiver with
            m_payload
            m_payloadTicks := curTicks
            m_rxState := .ReadingPayload
            m_pos := m_payload
            m_size := header.m_size.toUInt16 }.goesOn stored
      else
        { receiver with m_payload, m_rxState := .CompletePayload }.goesOn stored
  | none =>
      { receiver := { receiver with m_rxState := .Initialize }
        stored
        replied :=
          if header.m_flags &&& WP_Flags_c_NonCritical = 0 then
            some (WP_Flags_c_NonCritical ||| WP_Flags_c_NACK |||
              WP_Flags_c_BadHeader)
          else none
        delivered := none }

/-- A payload is complete. -/
def completePayload (receiver : Receiver) : Pass :=
  let header := readPacket receiver.memory device.m_header
  let later := { receiver with m_rxState := .Initialize }
  if device.verifiesPayload receiver.memory ⟨header, receiver.m_payload⟩ then
    { receiver := later
      stored := []
      replied := none
      delivered := some ⟨header,
        bytesAt receiver.memory receiver.m_payload header.m_size.toNat⟩ }
  else
    { receiver := later
      stored := []
      replied := some (WP_Flags_c_NonCritical ||| WP_Flags_c_NACK |||
        WP_Flags_c_BadPayload)
      delivered := none }

/-- The time since the last bytes of the payload is not too long. -/
def inTime (receiver : Receiver) (curTicks : UInt64) : Bool :=
  device.HAL_Time_SysTicksToTime_C
    (curTicks - receiver.m_payloadTicks).toUInt32 < c_PayloadTimeout

/-- A pass of the loop of `WP_Message_Process`; a call of it that returns is
taken up again by the next one. -/
def process (receiver : Receiver) (arrival : Arrival) : Pass :=
  let arrived : List Span := [⟨receiver.m_pos, arrival.received.length⟩]
  match receiver.m_rxState with
  | .Idle => receiver.goesOn []
  | .Initialize =>
      { receiver with
        m_payload := NULL
        m_rxState := .WaitingForHeader
        m_pos := device.m_header
        m_size := .ofNat sizeofPacket }.goesOn []
  | .WaitingForHeader =>
      let (whole, receiver) := WP_ReceiveBytes receiver arrival.received
      if whole then
        let (len, receiver, moved) := device.synchronize
          (.ofNat sizeofPacket - receiver.m_size : UInt16).toNat receiver
        if sizeofSignature ≤ len then
          { receiver with m_rxState := .ReadingHeader }.goesOn
            (arrived ++ moved)
        else
          receiver.goesOn (arrived ++ moved)
      else
        receiver.goesOn arrived
  | .ReadingHeader =>
      let (whole, receiver) := WP_ReceiveBytes receiver arrival.received
      if whole && receiver.m_size == 0 then
        { receiver with m_rxState := .CompleteHeader }.goesOn arrived
      else
        receiver.goesOn arrived
  | .CompleteHeader => device.completeHeader receiver arrival.curTicks
  | .ReadingPayload =>
      if device.inTime receiver arrival.curTicks then
        let (whole, receiver) := WP_ReceiveBytes
          { receiver with m_payloadTicks := arrival.curTicks } arrival.received
        if whole && receiver.m_size == 0 then
          { receiver with m_rxState := .CompletePayload }.goesOn arrived
        else
          receiver.goesOn arrived
      else
        { receiver with m_rxState := .Initialize }.goesOn []
  | .CompletePayload => device.completePayload receiver

/-- How many bytes a pass asks the transport for. -/
def asked (receiver : Receiver) (curTicks : UInt64) : Nat :=
  match receiver.m_rxState with
  | .WaitingForHeader => receiver.m_size.toNat
  | .ReadingHeader => receiver.m_size.toNat
  | .ReadingPayload =>
      if device.inTime receiver curTicks then receiver.m_size.toNat else 0
  | _ => 0

end Device

end WireProtocol

end NanoClr
