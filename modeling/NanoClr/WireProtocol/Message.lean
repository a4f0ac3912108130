import NanoClr.Support.ComputeCRC

/-!
# Wire protocol messages

Packets, how requests and replies are prepared, and how a received header and
its payload are verified against their checksums.
-/

namespace NanoClr

namespace WireProtocol

/-! ## Packets -/

/-- The flag of a reply. -/
def WP_Flags_c_Reply : UInt32 := 0x0002

/-- `WP_Packet`: the header of a message. -/
structure WP_Packet where
  m_signature : Vector UInt8 8
  m_crcHeader : UInt32
  m_crcData : UInt32
  m_cmd : UInt32
  m_seq : UInt16
  m_seqReply : UInt16
  m_flags : UInt32
  m_size : UInt32
deriving DecidableEq

/-- The bytes of a half word, the low one first. -/
def bytes16 (value : UInt16) : List UInt8 :=
  [value.toUInt8, (value >>> 8).toUInt8]

/-- The bytes of a word, the low one first. -/
def bytes32 (value : UInt32) : List UInt8 :=
  [
    value.toUInt8,
    (value >>> 8).toUInt8,
    (value >>> 16).toUInt8,
    (value >>> 24).toUInt8
  ]

/-- The thirty-two bytes of a packet, words with their low byte first. -/
def WP_Packet.bytes (packet : WP_Packet) : List UInt8 :=
  packet.m_signature.toList ++
    bytes32 packet.m_crcHeader ++
    bytes32 packet.m_crcData ++
    bytes32 packet.m_cmd ++
    bytes16 packet.m_seq ++
    bytes16 packet.m_seqReply ++
    bytes32 packet.m_flags ++
    bytes32 packet.m_size

/-- The checksum of a header as it stands. -/
def WP_Packet.crc (packet : WP_Packet) : UInt32 :=
  .ofNat (SUPPORT_ComputeCRC
    (fun address => packet.bytes.getD address 0) 0 (8 * 4) 0)

/-- A message: its header and the address of its payload. -/
structure WP_Message where
  m_header : WP_Packet
  m_payload : Nat
deriving DecidableEq

/-- The null pointer. -/
def NULL : Nat := 0

/-- The checksum of the bytes of a payload. -/
def payloadCrc (memory : Bytes) (payload : Nat) (size : UInt32) : UInt32 :=
  .ofNat (SUPPORT_ComputeCRC memory payload size.toNat 0)

/-! ## Preparing -/

/-- The marker `NFPKTV1`, with the zero at its end. -/
def MARKER_PACKET_V1 : Vector UInt8 8 :=
  #v[0x4E, 0x46, 0x50, 0x4B, 0x54, 0x56, 0x31, 0x00]

/-- What the preparing side keeps between messages. -/
structure Outbound where
  marker : Option (Vector UInt8 8)
  lastOutboundMessage : UInt16

/-- The header checksum, taken while its own field is zero. -/
def WP_Packet.withCrcHeader (packet : WP_Packet) : WP_Packet :=
  let zeroed := { packet with m_crcHeader := 0 }
  { zeroed with m_crcHeader := zeroed.crc }

/-- `WP_Message_PrepareRequest`: a header with a number of its own and both
checksums. -/
def WP_Message_PrepareRequest
    (memory : Bytes)
    (outbound : Outbound)
    (message : WP_Message)
    (cmd flags payloadSize : UInt32)
    (payload : Nat) : WP_Message × Outbound :=
  let header :=
    { message.m_header with
      m_signature := outbound.marker.getD MARKER_PACKET_V1
      m_crcData := payloadCrc memory payload payloadSize
      m_cmd := cmd
      m_seq := outbound.lastOutboundMessage
      m_seqReply := 0
      m_flags := flags
      m_size := payloadSize }
  ({ m_header := header.withCrcHeader, m_payload := payload },
    { outbound with
      lastOutboundMessage := outbound.lastOutboundMessage + 1 })

/-- `WP_Message_PrepareReply`: a header that names the request. -/
def WP_Message_PrepareReply
    (memory : Bytes)
    (outbound : Outbound)
    (message : WP_Message)
    (req : WP_Packet)
    (flags payloadSize : UInt32)
    (payload : Nat) : WP_Message × Outbound :=
  let header :=
    { message.m_header with
      m_signature := outbound.marker.getD MARKER_PACKET_V1
      m_crcData := payloadCrc memory payload payloadSize
      m_cmd := req.m_cmd
      m_seq := outbound.lastOutboundMessage
      m_seqReply := req.m_seq
      m_flags := flags ||| WP_Flags_c_Reply
      m_size := payloadSize }
  ({ m_header := header.withCrcHeader, m_payload := payload },
    { outbound with
      lastOutboundMessage := outbound.lastOutboundMessage + 1 })

/-! ## Verifying -/

/-- The field is zeroed before it is read. -/
def WP_Message_VerifyHeader (message : WP_Message) : Bool × WP_Message :=
  let zeroed := { message.m_header with m_crcHeader := 0 }
  let crc := zeroed.m_crcHeader
  let computedCrc := zeroed.crc
  (computedCrc == crc,
    { message with m_header := { zeroed with m_crcHeader := crc } })

/-- `WP_Message_VerifyPayload`. -/
def WP_Message_VerifyPayload (memory : Bytes) (message : WP_Message) : Bool :=
  if message.m_payload == NULL && message.m_header.m_size != 0 then
    false
  else
    payloadCrc memory message.m_payload message.m_header.m_size ==
      message.m_header.m_crcData

/-! ## What is prepared -/

/-- A payload: a block of memory, of no bytes where there is none. -/
structure Payload where
  address : Nat
  size : UInt32
  nullEmpty : address = NULL → size = 0

/-- The calls that build a packet. -/
inductive Preparation where
  | request
      (message : WP_Message)
      (cmd flags : UInt32)
      (payload : Payload)
  | reply
      (message : WP_Message)
      (req : WP_Packet)
      (flags : UInt32)
      (payload : Payload)

namespace Preparation

variable
  (memory : Bytes)
  (outbound : Outbound)

/-- The message that a preparation builds. -/
def built : Preparation → WP_Message
  | request message cmd flags payload =>
      (WP_Message_PrepareRequest memory outbound message cmd flags
        payload.size payload.address).1
  | reply message req flags payload =>
      (WP_Message_PrepareReply memory outbound message req flags
        payload.size payload.address).1

/-- What the header checksum of the packet is computed over. -/
def covered : Preparation → WP_Packet
  | request _ cmd flags payload =>
      { m_signature := outbound.marker.getD MARKER_PACKET_V1
        m_crcHeader := 0
        m_crcData := payloadCrc memory payload.address payload.size
        m_cmd := cmd
        m_seq := outbound.lastOutboundMessage
        m_seqReply := 0
        m_flags := flags
        m_size := payload.size }
  | reply _ req flags payload =>
      { m_signature := outbound.marker.getD MARKER_PACKET_V1
        m_crcHeader := 0
        m_crcData := payloadCrc memory payload.address payload.size
        m_cmd := req.m_cmd
        m_seq := outbound.lastOutboundMessage
        m_seqReply := req.m_seq
        m_flags := flags ||| WP_Flags_c_Reply
        m_size := payload.size }

/-- The payload of a preparation. -/
def payload : Preparation → Payload
  | request _ _ _ payload => payload
  | reply _ _ _ payload => payload

variable (preparation : Preparation)

theorem covered_crcHeader :
    (preparation.covered memory outbound).m_crcHeader = 0 := by
  cases preparation <;> rfl

theorem covered_crcData :
    (preparation.covered memory outbound).m_crcData =
      payloadCrc memory preparation.payload.address
        preparation.payload.size := by
  cases preparation <;> rfl

theorem covered_size :
    (preparation.covered memory outbound).m_size =
      preparation.payload.size := by
  cases preparation <;> rfl

/-- A built packet is what its checksum covers, with the checksum put in. -/
theorem built_eq :
    preparation.built memory outbound =
      { m_header :=
          { preparation.covered memory outbound with
            m_crcHeader := (preparation.covered memory outbound).crc }
        m_payload := preparation.payload.address } := by
  cases preparation <;> rfl

end Preparation

/-! ## The round trip -/

/-- What verifying compares: the checksum with the field of it zeroed. -/
def WP_Packet.zeroedCrc (packet : WP_Packet) : UInt32 :=
  { packet with m_crcHeader := 0 : WP_Packet }.crc

@[simp] theorem zeroedCrc_withField
    (packet : WP_Packet)
    (crcHeader : UInt32) :
    { packet with m_crcHeader := crcHeader : WP_Packet }.zeroedCrc =
      packet.zeroedCrc :=
  rfl

/-- The header that was sent, changed outside its stored checksum so that its
checksum is another one. -/
structure Tampered (sent header : WP_Packet) : Prop where
  stored : header.m_crcHeader = sent.m_crcHeader
  changed : header ≠ sent
  checksum : header.zeroedCrc ≠ sent.zeroedCrc

/-- A packet passes as it is, and no tampered header does. -/
structure RoundTrip (memory : Bytes) (message : WP_Message) : Prop where
  header : WP_Message_VerifyHeader message = (true, message)
  payload : WP_Message_VerifyPayload memory message = true
  tampered (header : WP_Packet) :
    Tampered message.m_header header →
      (WP_Message_VerifyHeader { message with m_header := header }).1 = false

theorem verifyHeader_eq (message : WP_Message) :
    WP_Message_VerifyHeader message =
      (message.m_header.zeroedCrc == 0,
        { message with
          m_header := { message.m_header with m_crcHeader := 0 } }) :=
  rfl

theorem verifyHeader_accepts (message : WP_Message) :
    (WP_Message_VerifyHeader message).1 = true ↔
      message.m_header.zeroedCrc = 0 := by
  rw [verifyHeader_eq, beq_iff_eq]

/-- A header whose checksum field is empty is left as it is. -/
theorem verifyHeader_unchanged
    (message : WP_Message)
    (empty : message.m_header.m_crcHeader = 0) :
    (WP_Message_VerifyHeader message).2 = message := by
  rcases message with ⟨header, payload⟩
  rcases header with ⟨signature, crcHeader⟩
  cases empty
  rfl

section Built

variable
  (memory : Bytes)
  (outbound : Outbound)
  (preparation : Preparation)

theorem built_zeroedCrc :
    (preparation.built memory outbound).m_header.zeroedCrc =
      (preparation.covered memory outbound).crc := by
  have zeroed := preparation.covered_crcHeader memory outbound
  rw [preparation.built_eq, zeroedCrc_withField, WP_Packet.zeroedCrc]
  rcases covers : preparation.covered memory outbound with
    ⟨signature, crcHeader⟩
  rw [covers] at zeroed
  cases zeroed
  rfl

theorem built_crcHeader :
    (preparation.built memory outbound).m_header.m_crcHeader =
      (preparation.covered memory outbound).crc := by
  rw [preparation.built_eq]

/-- The payload of a built packet passes. -/
theorem built_verifyPayload :
    WP_Message_VerifyPayload memory (preparation.built memory outbound) =
      true := by
  rw [preparation.built_eq, WP_Message_VerifyPayload, if_neg]
  · rw [preparation.covered_size, preparation.covered_crcData, beq_self_eq_true]
  · rw [Bool.and_eq_true, beq_iff_eq, bne_iff_ne, preparation.covered_size]
    rintro ⟨null, sized⟩
    exact sized (preparation.payload.nullEmpty null)

/-- A packet makes the round trip exactly where the checksum of its header
happens to be zero. -/
theorem preparation_roundTrip_iff :
    RoundTrip memory (preparation.built memory outbound) ↔
      (preparation.covered memory outbound).crc = 0 := by
  have zeroed := built_zeroedCrc memory outbound preparation
  constructor
  · intro roundTrip
    rw [← zeroed]
    exact (verifyHeader_accepts _).mp (congrArg Prod.fst roundTrip.header)
  · intro zero
    have field := built_crcHeader memory outbound preparation
    constructor
    · apply Prod.ext
      · exact (verifyHeader_accepts _).mpr (zeroed.trans zero)
      · exact verifyHeader_unchanged _ (field.trans zero)
    · exact built_verifyPayload memory outbound preparation
    · intro header tampered
      rw [← Bool.not_eq_true, verifyHeader_accepts]
      intro accepted
      exact tampered.checksum (accepted.trans (zeroed.trans zero).symm)

end Built

/-- A ping is not accepted by the side that it is built for. -/
theorem ping_not_roundTrip :
    ¬ ∀ (memory : Bytes) (outbound : Outbound) (preparation : Preparation),
      RoundTrip memory (preparation.built memory outbound) := by
  intro roundTrips
  let message : WP_Message :=
    ⟨⟨Vector.replicate 8 0, 0, 0, 0, 0, 0, 0, 0⟩, NULL⟩
  have ping := roundTrips (fun _ => 0) ⟨none, 0⟩
    (.request message 0 0 ⟨NULL, 0, fun _ => rfl⟩)
  have accepted := congrArg Prod.fst ping.header
  revert accepted
  decide +kernel

end WireProtocol

end NanoClr
