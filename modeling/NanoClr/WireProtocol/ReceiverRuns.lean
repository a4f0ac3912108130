import NanoClr.Library.TransitionSystem
import NanoClr.WireProtocol.Reception

/-!
# The runs of the receiver

Passes of the loop with the bytes that the transport delivers. Where headers and
payloads come at once, with nothing ahead of a marker, the receiver stays inside
its buffers and hands over the packets of the stream.
-/

namespace NanoClr

namespace WireProtocol

/-! ## Runs -/

/-- A receiver with the bytes that came, the messages that were handed over, and
what was stored. -/
structure Reception where
  receiver : Receiver
  consumed : List UInt8
  delivered : List ReceivedMessage
  stored : List Span

/-- What is done with a message: a pass of the loop in the same or in another
call, or it is prepared anew. -/
inductive ReceiveEvent where
  | pass (arrival : Arrival)
  | prepare

/-- A message that is prepared for reception. -/
def ReceiveStart (reception : Reception) : Prop :=
  reception.receiver.m_rxState = .Initialize ∧
    reception.consumed = [] ∧ reception.delivered = [] ∧ reception.stored = []

namespace Device

/-- One more pass. -/
def pass (device : Device) (reception : Reception) (arrival : Arrival) :
    Reception :=
  let pass := device.process reception.receiver arrival
  { receiver := pass.receiver
    consumed := reception.consumed ++ arrival.received
    delivered := reception.delivered ++ pass.delivered.toList
    stored := reception.stored ++ pass.stored }

/-- The message is prepared anew, as `ReceiverThread` does before each call. -/
def prepare (device : Device) (reception : Reception) : Reception :=
  { reception with
    receiver := WP_Message_PrepareReception
      (device.WP_Message_Initialize reception.receiver)
    stored := reception.stored ++ [⟨device.m_header, sizeofPacket⟩] }

/-- What is done with a message next. -/
def next (device : Device) (reception : Reception) : ReceiveEvent → Reception
  | .pass arrival => device.pass reception arrival
  | .prepare => device.prepare reception

/-- A pass receives no more than it asks for, and a call has returned before the
message is prepared anew. -/
def allows (device : Device) (reception : Reception) : ReceiveEvent → Bool
  | .pass arrival =>
      decide (arrival.received.length ≤
        device.asked reception.receiver arrival.curTicks)
  | .prepare => reception.receiver.waits

/-- What is done with a message in one step. -/
def ReceiveStep (device : Device) (reception : Reception) (event : ReceiveEvent)
    (later : Reception) : Prop :=
  device.allows reception event = true ∧ later = device.next reception event

/-- Bytes of the header or of the buffer for payloads. -/
def Inside (device : Device) (span : Span) : Prop :=
  (device.m_header ≤ span.address ∧
      span.address + span.length ≤ device.m_header + sizeofPacket) ∨
    (device.receptionBuffer ≤ span.address ∧
      span.address + span.length ≤
        device.receptionBuffer + device.sizeofReceptionBuffer)

/-- Nothing is stored outside, and the messages of the stream are handed over in
order: all of them by the time that more bytes are waited for. -/
structure Sound (device : Device) (reception : Reception) : Prop where
  inside : ∀ span ∈ reception.stored, device.Inside span
  inOrder : reception.delivered <+: device.packets.messages reception.consumed
  all : reception.receiver.waits = true →
    reception.delivered = device.packets.messages reception.consumed

/-! ## The condition -/

/-- The bytes of the packet that has come. -/
def lastPacket (device : Device) (reception : Reception) : List UInt8 :=
  reception.consumed.drop (reception.consumed.length -
    (sizeofPacket +
      (device.messageIn reception.receiver).m_header.m_size.toNat))

/-- Nothing of the bytes that the receiver gave up begins a packet. -/
def Forsaken (device : Device) (reception : Reception)
    (received : List UInt8) : Prop :=
  ∀ place < (device.packets.pending reception.consumed).length,
    device.packets.verdict
      ((device.packets.pending reception.consumed ++ received).drop place) =
        .refused

/-- Nothing of a header comes, or all of it, and it begins with a marker. -/
def HeaderComes (device : Device) (reception : Reception)
    (arrival : Arrival) : Prop :=
  arrival.received = [] ∨
    (arrival.received.length = reception.receiver.m_size.toNat ∧
      Marked arrival.received ∧ device.Forsaken reception arrival.received)

/-- Nothing of a payload comes, or all of it. -/
def PayloadComes (reception : Reception) (arrival : Arrival) : Prop :=
  arrival.received = [] ∨
    arrival.received.length = reception.receiver.m_size.toNat

/-- A packet that does not pass holds no other one. -/
def PassesOrEmpty (device : Device) (reception : Reception) : Prop :=
  device.TakesPayload (device.messageIn reception.receiver) ∨
    device.packets.messages (device.lastPacket reception) = []

/-- Headers and payloads come whole, headers begin with a marker and are checked
exactly, and no packet is in what is given up. -/
structure ProperPass (device : Device) (reception : Reception)
    (arrival : Arrival) : Prop where
  header : reception.receiver.m_rxState = .WaitingForHeader →
    device.HeaderComes reception arrival
  checks : reception.receiver.m_rxState = .CompleteHeader →
    device.ChecksExactly (readPacket reception.receiver.memory device.m_header)
  payload : reception.receiver.m_rxState = .ReadingPayload →
    PayloadComes reception arrival
  passes : reception.receiver.m_rxState = .CompletePayload →
    device.PassesOrEmpty reception

instance (device : Device) (reception : Reception) (received : List UInt8) :
    Decidable (device.Forsaken reception received) :=
  inferInstanceAs (Decidable (∀ _ < _, _))

instance (device : Device) (reception : Reception) (arrival : Arrival) :
    Decidable (device.HeaderComes reception arrival) :=
  inferInstanceAs (Decidable (_ ∨ _))

instance (reception : Reception) (arrival : Arrival) :
    Decidable (PayloadComes reception arrival) :=
  inferInstanceAs (Decidable (_ ∨ _))

instance (device : Device) (reception : Reception) :
    Decidable (device.PassesOrEmpty reception) :=
  inferInstanceAs (Decidable (_ ∨ _))

theorem properPass_iff (device : Device) (reception : Reception)
    (arrival : Arrival) :
    ((reception.receiver.m_rxState = .WaitingForHeader →
        device.HeaderComes reception arrival) ∧
      (reception.receiver.m_rxState = .CompleteHeader →
        device.ChecksExactly
          (readPacket reception.receiver.memory device.m_header)) ∧
      (reception.receiver.m_rxState = .ReadingPayload →
        PayloadComes reception arrival) ∧
      (reception.receiver.m_rxState = .CompletePayload →
        device.PassesOrEmpty reception)) ↔
    device.ProperPass reception arrival := by
  constructor
  · rintro ⟨header, checks, payload, passes⟩
    exact ⟨header, checks, payload, passes⟩
  · rintro ⟨header, checks, payload, passes⟩
    exact ⟨header, checks, payload, passes⟩

instance (device : Device) (reception : Reception) (arrival : Arrival) :
    Decidable (device.ProperPass reception arrival) :=
  decidable_of_iff _ (properPass_iff device reception arrival)

/-- The condition of a step; preparing anew has none. -/
def Proper (device : Device) (reception : Reception) : ReceiveEvent → Prop
  | .pass arrival => device.ProperPass reception arrival
  | .prepare => True

instance (device : Device) (reception : Reception) (event : ReceiveEvent) :
    Decidable (device.Proper reception event) :=
  match event with
  | .pass arrival =>
      inferInstanceAs (Decidable (device.ProperPass reception arrival))
  | .prepare => inferInstanceAs (Decidable True)

/-! ## The invariant -/

/-- A header has come and is in its place. -/
structure HeaderRead (device : Device) (reception : Reception)
    (header : List UInt8) : Prop where
  found : device.packets.Found reception.consumed reception.delivered header
  marked : Marked header
  whole : header.length = sizeofPacket
  memory : readPacket reception.receiver.memory device.m_header =
    headerOf header

/-- A header has passed, and its packet has come so far. -/
structure PacketRead (device : Device) (reception : Reception)
    (packet : List UInt8) : Prop where
  found : device.packets.Found reception.consumed reception.delivered packet
  marked : Marked packet
  taken : device.TakesHeader (headerOf packet)
  memory : readPacket reception.receiver.memory device.m_header =
    { headerOf packet with m_crcHeader := 0 }
  payload : reception.receiver.m_payload = device.receptionBuffer

/-- What has come in each state. -/
def Collects (device : Device) (reception : Reception) : Prop :=
  match reception.receiver.m_rxState with
  | .Idle => False
  | .Initialize =>
      reception.delivered = device.packets.messages reception.consumed
  | .WaitingForHeader =>
      reception.delivered = device.packets.messages reception.consumed ∧
        reception.receiver.m_pos = device.m_header ∧
        reception.receiver.m_size = .ofNat sizeofPacket
  | .ReadingHeader =>
      reception.receiver.m_pos = device.m_header ∧
        reception.receiver.m_size = 0 ∧
        ∃ header, device.HeaderRead reception header
  | .CompleteHeader => ∃ header, device.HeaderRead reception header
  | .ReadingPayload =>
      ∃ packet, device.PacketRead reception packet ∧
        packet.length = sizeofPacket ∧
        (headerOf packet).m_size ≠ 0 ∧
        reception.receiver.m_pos = device.receptionBuffer ∧
        reception.receiver.m_size = (headerOf packet).m_size.toUInt16
  | .CompletePayload =>
      ∃ packet, device.PacketRead reception packet ∧
        packet.length = packetLength packet ∧
        bytesAt reception.receiver.memory device.receptionBuffer
            (headerOf packet).m_size.toNat =
          (messageOf packet).payload

/-- What was stored lies inside, and what has come is known. -/
structure Receives (device : Device) (reception : Reception) : Prop where
  inside : ∀ span ∈ reception.stored, device.Inside span
  collects : device.Collects reception

variable
  {device : Device}
  {reception : Reception}
  {arrival : Arrival}

theorem inside_header {length : Nat} (fits : length ≤ sizeofPacket) :
    device.Inside ⟨device.m_header, length⟩ :=
  Or.inl ⟨Nat.le_refl _, Nat.add_le_add_left fits _⟩

theorem inside_payload {length : Nat}
    (fits : length ≤ device.sizeofReceptionBuffer) :
    device.Inside ⟨device.receptionBuffer, length⟩ :=
  Or.inr ⟨Nat.le_refl _, Nat.add_le_add_left fits _⟩

theorem inside_crcHeader : device.Inside ⟨device.m_header + 8, 4⟩ :=
  Or.inl ⟨Nat.le_add_right _ _,
    Nat.add_le_add_left (show 12 ≤ sizeofPacket by decide) device.m_header⟩

/-! ## Steps -/

/-- A pass that hands over nothing. -/
theorem pass_goesOn
    {later : Receiver}
    {stored : List Span}
    (passes : device.process reception.receiver arrival = later.goesOn stored) :
    device.pass reception arrival =
      { receiver := later
        consumed := reception.consumed ++ arrival.received
        delivered := reception.delivered
        stored := reception.stored ++ stored } := by
  rw [pass, passes]
  simp only [Receiver.goesOn, Option.toList_none, List.append_nil]

theorem received_nil
    (atMost : arrival.received.length ≤
      device.asked reception.receiver arrival.curTicks)
    (none_ : device.asked reception.receiver arrival.curTicks = 0) :
    arrival.received = [] :=
  List.length_eq_zero_iff.mp (Nat.le_zero.mp (none_ ▸ atMost))

theorem inside_append
    {stored : List Span}
    {last : Span}
    (inside : ∀ span ∈ stored, device.Inside span)
    (lastInside : device.Inside last) :
    ∀ span ∈ stored ++ [last], device.Inside span :=
  List.forall_mem_append.mpr
    ⟨inside, List.forall_mem_singleton.mpr lastInside⟩

/-- Bytes of a header that may still become a packet hold none. -/
theorem messages_header
    {header : List UInt8}
    (marked : Marked header)
    (whole : header.length = sizeofPacket)
    (undelivered : device.TakesHeader (headerOf header) →
      (headerOf header).m_size ≠ 0) :
    device.packets.messages header = [] := by
  by_cases taken : device.TakesHeader (headerOf header)
  · apply Framing.messages_unfinished
    apply packetVerdict_open marked (Nat.le_of_eq whole.symm) taken
    have some_ : (headerOf header).m_size.toNat ≠ 0 := fun zero =>
      undelivered taken (UInt32.toNat_inj.mp zero)
    rw [packetLength, whole]
    omega
  · have refused := packetVerdict_header (Nat.le_of_eq whole.symm) taken
    rw [Framing.messages_refused refused]
    apply packets_short
    rw [List.length_tail, whole]
    decide

theorem receives_begin
    (receives : device.Receives reception)
    (state : reception.receiver.m_rxState = .Initialize)
    (atMost : arrival.received.length ≤
      device.asked reception.receiver arrival.curTicks) :
    device.Receives (device.pass reception arrival) := by
  have nothing : arrival.received = [] := received_nil atMost (by rw [asked, state])
  have delivered := receives.collects
  rw [Collects, state] at delivered
  rw [pass_goesOn (process_begin state), nothing, List.append_nil,
    List.append_nil]
  exact ⟨receives.inside, delivered, rfl, rfl⟩

/-- Nothing has come, or the whole header. -/
theorem receives_header
    (receives : device.Receives reception)
    (state : reception.receiver.m_rxState = .WaitingForHeader)
    (proper : device.ProperPass reception arrival) :
    device.Receives (device.pass reception arrival) := by
  obtain ⟨delivered, position, size⟩ :
      reception.delivered = device.packets.messages reception.consumed ∧
        reception.receiver.m_pos = device.m_header ∧
        reception.receiver.m_size = .ofNat sizeofPacket := by
    simpa only [Collects, state] using receives.collects
  rcases proper.header state with nothing | ⟨all, marked, forsaken⟩
  · have some_ : reception.receiver.m_size ≠ 0 := by
      rw [size]
      decide
    rw [pass_goesOn (process_noHeader state some_ nothing), nothing,
      List.append_nil]
    constructor
    · rw [position]
      exact inside_append receives.inside (inside_header (Nat.zero_le _))
    · rw [Collects]
      simp only [state]
      exact ⟨delivered, position, size⟩
  · have whole : arrival.received.length = sizeofPacket := by
      rw [all, size]
      rfl
    rw [pass_goesOn (process_header state position size whole marked)]
    constructor
    · exact inside_append receives.inside (inside_header (Nat.le_refl _))
    · refine ⟨position, rfl, arrival.received, ?_⟩
      exact
        { found := ⟨reception.consumed, rfl, delivered.symm, forsaken⟩
          marked
          whole
          memory := readPacket_storeBytes whole }

theorem receives_restOfHeader
    (receives : device.Receives reception)
    (state : reception.receiver.m_rxState = .ReadingHeader)
    (atMost : arrival.received.length ≤
      device.asked reception.receiver arrival.curTicks) :
    device.Receives (device.pass reception arrival) := by
  obtain ⟨position, size, header, read⟩ :
      reception.receiver.m_pos = device.m_header ∧
        reception.receiver.m_size = 0 ∧
        ∃ header, device.HeaderRead reception header := by
    simpa only [Collects, state] using receives.collects
  have nothing : arrival.received = [] := received_nil atMost (by
    rw [asked, state]
    exact congrArg UInt16.toNat size)
  rw [pass_goesOn (process_restOfHeader state size nothing), nothing,
    List.append_nil]
  constructor
  · rw [position]
    exact inside_append receives.inside (inside_header (Nat.zero_le _))
  · exact ⟨header, { read with }⟩

/-- A header passes and its payload is waited for, or it is given up. -/
theorem receives_completeHeader
    (receives : device.Receives reception)
    (state : reception.receiver.m_rxState = .CompleteHeader)
    (atMost : arrival.received.length ≤
      device.asked reception.receiver arrival.curTicks)
    (proper : device.ProperPass reception arrival) :
    device.Receives (device.pass reception arrival) := by
  have nothing : arrival.received = [] := received_nil atMost (by rw [asked, state])
  obtain ⟨header, read⟩ : ∃ header, device.HeaderRead reception header := by
    simpa only [Collects, state] using receives.collects
  have exactly := proper.checks state
  have zeroed : readPacket (device.zeroed reception.receiver).memory
      device.m_header = { headerOf header with m_crcHeader := 0 } := by
    rw [Device.zeroed, readPacket_zeroed, read.memory]
  have passes : device.process reception.receiver arrival =
      device.completeHeader reception.receiver arrival.curTicks := by
    rw [process, state]
  by_cases taken : device.TakesHeader (headerOf header)
  · have taken' := taken
    rw [← read.memory] at taken'
    by_cases none_ : (headerOf header).m_size = 0
    · have none' := none_
      rw [← read.memory] at none'
      rw [pass_goesOn (passes.trans (completeHeader_noPayload exactly taken'
        none')), nothing, List.append_nil]
      constructor
      · exact inside_append receives.inside inside_crcHeader
      · refine ⟨header, ⟨read.found, read.marked, taken, zeroed, rfl⟩, ?_, ?_⟩
        · rw [packetLength, none_, read.whole]
          rfl
        · rw [messageOf, none_]
          rfl
    · have some_ := none_
      rw [← read.memory] at some_
      rw [pass_goesOn (passes.trans (completeHeader_payload exactly taken'
        some_)), nothing, List.append_nil]
      constructor
      · exact inside_append receives.inside inside_crcHeader
      · exact ⟨header, ⟨read.found, read.marked, taken, zeroed, rfl⟩,
          read.whole, none_, rfl, by rw [read.memory]⟩
  · have refused := taken
    rw [← read.memory] at refused
    obtain ⟨later, stored, delivered⟩ :=
      @completeHeader_refused device reception.receiver arrival.curTicks
        exactly refused
    have all : reception.delivered =
        device.packets.messages reception.consumed := by
      rw [read.found.messages, messages_header read.marked read.whole
        fun taken' => absurd taken' taken, List.append_nil]
    rw [pass, passes, later, stored, delivered, nothing]
    simp only [Option.toList_none, List.append_nil]
    exact ⟨inside_append receives.inside inside_crcHeader, all⟩

/-- A payload that passes is counted in half a word. -/
theorem TakesHeader.counted
    {header : WP_Packet}
    (taken : device.TakesHeader header) :
    header.m_size.toUInt16.toNat = header.m_size.toNat := by
  rw [UInt32.toNat_toUInt16]
  exact Nat.mod_eq_of_lt (Nat.lt_of_le_of_lt taken.2 device.small)

/-- What is stored into the buffer leaves the header as it is. -/
theorem readPacket_buffer
    {memory : Bytes}
    {payload : List UInt8}
    (fits : payload.length ≤ device.sizeofReceptionBuffer) :
    readPacket (storeBytes memory device.receptionBuffer payload)
        device.m_header = readPacket memory device.m_header := by
  apply readPacket_congr
  intro index below
  have apart := device.apart
  exact storeBytes_outside (by omega)

/-- The payload comes behind its header. -/
theorem PacketRead.behind
    {header : List UInt8}
    (read : device.PacketRead reception header)
    (whole : header.length = sizeofPacket)
    (all : arrival.received.length = (headerOf header).m_size.toNat)
    {later : Receiver}
    {stored : List Span}
    (memory : later.memory = storeBytes reception.receiver.memory
      device.receptionBuffer arrival.received)
    (payload : later.m_payload = reception.receiver.m_payload) :
    device.PacketRead
      { receiver := later
        consumed := reception.consumed ++ arrival.received
        delivered := reception.delivered
        stored } (header ++ arrival.received) := by
  have enough : sizeofPacket ≤ header.length := Nat.le_of_eq whole.symm
  have sameHeader := headerOf_append enough arrival.received
  exact
    { found := read.found.append arrival.received
      marked := (marked_append enough _).mpr read.marked
      taken := by
        rw [sameHeader]
        exact read.taken
      memory := by
        rw [sameHeader, memory, readPacket_buffer (all ▸ read.taken.2),
          read.memory]
      payload := payload.trans read.payload }

/-- Nothing of a payload has come, all of it, or it is given up. -/
theorem receives_payload
    (receives : device.Receives reception)
    (state : reception.receiver.m_rxState = .ReadingPayload)
    (atMost : arrival.received.length ≤
      device.asked reception.receiver arrival.curTicks)
    (proper : device.ProperPass reception arrival) :
    device.Receives (device.pass reception arrival) := by
  obtain ⟨packet, read, whole, sized, position, size⟩ :
      ∃ packet, device.PacketRead reception packet ∧
        packet.length = sizeofPacket ∧
        (headerOf packet).m_size ≠ 0 ∧
        reception.receiver.m_pos = device.receptionBuffer ∧
        reception.receiver.m_size = (headerOf packet).m_size.toUInt16 := by
    simpa only [Collects, state] using receives.collects
  have counted : reception.receiver.m_size.toNat =
      (headerOf packet).m_size.toNat := by
    rw [size, read.taken.counted]
  cases inTime : device.inTime reception.receiver arrival.curTicks with
  | false =>
      have nothing : arrival.received = [] := received_nil atMost (by
        rw [asked, state]
        exact if_neg (inTime ▸ Bool.false_ne_true))
      have all : reception.delivered =
          device.packets.messages reception.consumed := by
        rw [read.found.messages, messages_header read.marked whole
          fun _ => sized, List.append_nil]
      rw [pass_goesOn (process_late state inTime), nothing, List.append_nil,
        List.append_nil]
      exact ⟨receives.inside, all⟩
  | true =>
      have some_ : reception.receiver.m_size ≠ 0 := by
        intro none_
        rw [none_] at counted
        exact sized (UInt32.toNat_inj.mp counted.symm)
      rcases proper.payload state with nothing | all
      · rw [pass_goesOn (process_noPayload state inTime some_ nothing), nothing,
          List.append_nil]
        constructor
        · rw [position]
          exact inside_append receives.inside (inside_payload (Nat.zero_le _))
        · rw [Collects]
          simp only [state]
          exact ⟨packet, { read with }, whole, sized, position, size⟩
      · have all' := all.trans counted
        rw [pass_goesOn (process_payload state inTime all)]
        simp only [position]
        constructor
        · exact inside_append receives.inside
            (inside_payload (all' ▸ read.taken.2))
        · have sameHeader := headerOf_append (Nat.le_of_eq whole.symm)
            arrival.received
          refine ⟨packet ++ arrival.received,
            read.behind whole all' rfl rfl, ?_, ?_⟩
          · rw [packetLength, sameHeader, List.length_append, whole, all']
          · rw [messageOf, sameHeader, ← all', bytesAt_storeBytes, ← whole,
              List.drop_left, List.take_length]

/-- A packet that has come is handed over where its payload passes. -/
theorem receives_completePayload
    (receives : device.Receives reception)
    (state : reception.receiver.m_rxState = .CompletePayload)
    (atMost : arrival.received.length ≤
      device.asked reception.receiver arrival.curTicks)
    (proper : device.ProperPass reception arrival) :
    device.Receives (device.pass reception arrival) := by
  have nothing : arrival.received = [] := received_nil atMost (by rw [asked, state])
  obtain ⟨packet, read, whole, payload⟩ :
      ∃ packet, device.PacketRead reception packet ∧
        packet.length = packetLength packet ∧
        bytesAt reception.receiver.memory device.receptionBuffer
            (headerOf packet).m_size.toNat = (messageOf packet).payload := by
    simpa only [Collects, state] using receives.collects
  have message : device.messageIn reception.receiver = messageOf packet := by
    rw [messageIn, read.memory, read.payload]
    exact congrArg (ReceivedMessage.mk _) payload
  have lastPacket : device.lastPacket reception = packet := by
    obtain ⟨old, consumed, _⟩ := read.found
    have length : sizeofPacket + (messageOf packet).m_header.m_size.toNat =
        packet.length := whole.symm
    rw [Device.lastPacket, message, length, consumed, List.length_append,
      Nat.add_sub_cancel, List.drop_left]
  have prepared : reception.receiver.m_payload ≠ NULL := by
    rw [read.payload]
    exact device.notNull
  have passes : device.process reception.receiver arrival =
      device.completePayload reception.receiver := by
    rw [process, state]
  obtain ⟨later, stored, delivered⟩ := completePayload_eq prepared
  rw [message] at delivered
  have decides := packetVerdict_whole read.marked read.taken
    (Nat.le_of_eq whole.symm)
  have passesOrEmpty := proper.passes state
  rw [PassesOrEmpty, message, lastPacket] at passesOrEmpty
  have handed : reception.delivered ++
      (if device.TakesPayload (messageOf packet) then some (messageOf packet)
        else none).toList = device.packets.messages reception.consumed := by
    rw [read.found.messages]
    by_cases taken : device.TakesPayload (messageOf packet)
    · rw [if_pos taken, ← whole] at decides
      rw [if_pos taken, Framing.messages_frame decides]
      rfl
    · rw [if_neg taken, passesOrEmpty.resolve_left taken]
      rfl
  rw [pass, passes, later, stored, delivered, nothing, List.append_nil,
    List.append_nil]
  exact ⟨receives.inside, handed⟩

/-- Every pass that meets the condition keeps the invariant. -/
theorem receives_pass
    (receives : device.Receives reception)
    (atMost : arrival.received.length ≤
      device.asked reception.receiver arrival.curTicks)
    (proper : device.ProperPass reception arrival) :
    device.Receives (device.pass reception arrival) := by
  cases state : reception.receiver.m_rxState with
  | Idle =>
      have never := receives.collects
      rw [Collects, state] at never
      exact never.elim
  | Initialize => exact receives_begin receives state atMost
  | WaitingForHeader => exact receives_header receives state proper
  | ReadingHeader => exact receives_restOfHeader receives state atMost
  | CompleteHeader => exact receives_completeHeader receives state atMost proper
  | ReadingPayload => exact receives_payload receives state atMost proper
  | CompletePayload =>
      exact receives_completePayload receives state atMost proper

/-- While more bytes are waited for, all messages have been handed over. -/
theorem Receives.delivered_eq
    (receives : device.Receives reception)
    (waits : reception.receiver.waits = true) :
    reception.delivered = device.packets.messages reception.consumed := by
  have collects := receives.collects
  cases state : reception.receiver.m_rxState with
  | WaitingForHeader =>
      rw [Collects, state] at collects
      exact collects.1
  | ReadingHeader =>
      rw [Collects, state] at collects
      rw [Receiver.waits, state, collects.2.1] at waits
      cases waits
  | ReadingPayload =>
      rw [Collects, state] at collects
      obtain ⟨packet, read, whole, sized, _⟩ := collects
      rw [read.found.messages, messages_header read.marked whole fun _ => sized,
        List.append_nil]
  | Idle | Initialize | CompleteHeader | CompletePayload =>
      rw [Receiver.waits, state] at waits
      cases waits

/-- A message that is prepared anew begins with the next packet. -/
theorem receives_prepare
    (receives : device.Receives reception)
    (waits : reception.receiver.waits = true) :
    device.Receives (device.prepare reception) :=
  ⟨inside_append receives.inside (inside_header (Nat.le_refl _)),
    receives.delivered_eq waits⟩

/-- Every step that meets the condition keeps the invariant. -/
theorem receives_next
    {event : ReceiveEvent}
    {later : Reception}
    (receives : device.Receives reception)
    (proper : device.Proper reception event)
    (steps : device.ReceiveStep reception event later) :
    device.Receives later := by
  obtain ⟨allowed, rfl⟩ := steps
  cases event with
  | pass arrival => exact receives_pass receives (of_decide_eq_true allowed) proper
  | prepare => exact receives_prepare receives allowed

theorem receives_start (begins : ReceiveStart reception) :
    device.Receives reception := by
  obtain ⟨state, consumed, delivered, stored⟩ := begins
  constructor
  · rw [stored]
    exact List.forall_mem_nil _
  · rw [Collects, state]
    simp only [consumed, delivered]
    exact (packets_short (by decide)).symm

/-- The messages that are handed over are those of the stream. -/
theorem Receives.sound (receives : device.Receives reception) :
    device.Sound reception := by
  have collects := receives.collects
  have inOrder : reception.delivered <+:
      device.packets.messages reception.consumed := by
    rw [Collects] at collects
    split at collects
    · exact collects.elim
    · exact ⟨[], by rw [List.append_nil, collects]⟩
    · exact ⟨[], by rw [List.append_nil, collects.1]⟩
    · obtain ⟨_, _, header, read⟩ := collects
      exact ⟨_, read.found.messages.symm⟩
    · obtain ⟨header, read⟩ := collects
      exact ⟨_, read.found.messages.symm⟩
    · obtain ⟨packet, read, _⟩ := collects
      exact ⟨_, read.found.messages.symm⟩
    · obtain ⟨packet, read, _⟩ := collects
      exact ⟨_, read.found.messages.symm⟩
  exact ⟨receives.inside, inOrder, receives.delivered_eq⟩

/-- Where headers and payloads come whole and nothing is given up that begins a
packet, the receiver stays inside its buffers and hands over the packets of the
stream. -/
theorem receiver_sound
    {taken : List (Reception × ReceiveEvent)}
    (run : Run ReceiveStart device.ReceiveStep taken reception)
    (proper : ∀ entry ∈ taken, device.Proper entry.1 entry.2) :
    device.Sound reception :=
  Receives.sound
    (run.invariant_of device.Receives device.Proper
      (fun _ begins => receives_start begins)
      (fun _ _ _ receives proper steps => receives_next receives proper steps)
      proper)

end Device

theorem checkingDevice_notNull : 2000 ≠ NULL := by decide

theorem checkingDevice_small : 1056 < 2 ^ 16 := by decide

theorem checkingDevice_apart :
    1000 + sizeofPacket ≤ 2000 ∨ 2000 + 1056 ≤ 1000 := by decide

/-- A device with checksums and a buffer of 1056 bytes. -/
def checkingDevice : Device where
  m_header := 1000
  receptionBuffer := 2000
  sizeofReceptionBuffer := 1056
  WP_IMPLEMENTS_CRC32 := true
  HAL_Time_SysTicksToTime_C := UInt32.toUInt64
  notNull := checkingDevice_notNull
  small := checkingDevice_small
  apart := checkingDevice_apart

/-- A message that is prepared for reception, before anything comes. -/
def beforeReception : Reception where
  receiver :=
    { memory := fun _ => 0
      m_payload := NULL
      m_pos := NULL
      m_size := 0
      m_payloadTicks := 0
      m_rxState := .Initialize }
  consumed := []
  delivered := []
  stored := []

/-- Steps that are allowed are a run. -/
theorem run_next
    {device : Device}
    {events : List ReceiveEvent}
    (allowed : (trail device.next beforeReception events).all fun entry =>
      device.allows entry.1 entry.2) :
    Run ReceiveStart device.ReceiveStep
      (trail device.next beforeReception events)
      (events.foldl device.next beforeReception) := by
  have begins : ReceiveStart beforeReception := ⟨rfl, rfl, rfl, rfl⟩
  refine (Run.start begins).follow device.next ?_
  intro entry member
  exact ⟨List.all_eq_true.mp allowed entry member, rfl⟩

/-- A pass in which bytes come. -/
def bytes (received : List UInt8) : ReceiveEvent := .pass ⟨received, 5⟩

/-- A pass in which nothing comes. -/
def nothing : ReceiveEvent := bytes []

/-- A header of a packet with a payload of two bytes. -/
def headerOfTwo : List UInt8 :=
  [
    0x4E, 0x46, 0x50, 0x4B, 0x54, 0x56, 0x31, 0x00,
    0x00, 0x00, 0x00, 0x00, 0x41, 0xD7, 0xE9, 0x53,
    0xB8, 0x0F, 0x27, 0xB4, 0x01, 0x00, 0x00, 0x00,
    0x00, 0x00, 0x00, 0x00, 0x02, 0x00, 0x00, 0x00
  ]

/-- A packet without a payload. -/
def packetOfNone : List UInt8 :=
  [
    0x4E, 0x46, 0x44, 0x42, 0x47, 0x56, 0x31, 0x00,
    0x00, 0x00, 0x00, 0x00, 0x00, 0x00, 0x00, 0x00,
    0xCC, 0x64, 0x42, 0x6E, 0x02, 0x00, 0x00, 0x00,
    0x00, 0x00, 0x00, 0x00, 0x00, 0x00, 0x00, 0x00
  ]

/-- Two packets, with passes between in which nothing comes. -/
def eventsOfTwo : List ReceiveEvent :=
  [
    nothing, nothing, .prepare, nothing, bytes headerOfTwo, nothing, nothing,
    nothing, bytes [0x11, 0x22], nothing, nothing, nothing, .prepare, nothing,
    bytes packetOfNone, nothing, nothing, nothing, nothing
  ]

/-- Two packets are handed over. -/
theorem receiver_sound_two :
    (eventsOfTwo.foldl checkingDevice.next beforeReception).delivered =
        [messageOf (headerOfTwo ++ [0x11, 0x22]), messageOf packetOfNone] ∧
      checkingDevice.Sound
        (eventsOfTwo.foldl checkingDevice.next beforeReception) := by
  have run := @run_next checkingDevice eventsOfTwo (by decide +kernel)
  have proper : (trail checkingDevice.next beforeReception eventsOfTwo).all
      fun entry => decide (checkingDevice.Proper entry.1 entry.2) := by
    decide +kernel
  refine ⟨by decide +kernel, Device.receiver_sound run ?_⟩
  intro entry member
  exact of_decide_eq_true (List.all_eq_true.mp proper entry member)

/-- One byte ahead of a packet: what is read of its header is moved down, and
the last byte of it is stored ahead of the header. -/
def eventsBehindGarbage : List ReceiveEvent :=
  [nothing, bytes (0x00 :: packetOfNone.take 31), bytes (packetOfNone.drop 31)]

theorem receiver_storesOutside :
    ¬ ∀ (device : Device) (taken : List (Reception × ReceiveEvent))
        (reception : Reception),
      Run ReceiveStart device.ReceiveStep taken reception →
        device.Sound reception := by
  intro sound
  have behind := sound checkingDevice _ _
    (@run_next checkingDevice eventsBehindGarbage (by decide +kernel))
  have stored : (⟨999, 1⟩ : Span) ∈
      (eventsBehindGarbage.foldl checkingDevice.next
        beforeReception).stored := by decide +kernel
  rcases behind.inside _ stored with ⟨above, _⟩ | ⟨above, _⟩
  · exact absurd above (by decide)
  · exact absurd above (by decide)

end WireProtocol

end NanoClr
