import NanoClr.Messaging.Packets

/-!
# Queueing a message

`AllocateAndQueueMessage` and the two handlers that call it.
-/

namespace NanoClr

namespace Messaging

/-! ## The handlers -/

/-- The bytes of an address. -/
def sizeofAddress : UInt32 := 20

/-- The bytes of a message, its first byte of data and padding included. -/
def sizeofMessage : UInt32 := 48

/-- Where the data of a message starts. -/
def offsetofData : Nat := 44

/-- The event that a message has come. -/
def c_Event_EndPoint : UInt32 := 0x00000008

/-- The command for sending a message. -/
def c_Messaging_Send : UInt32 := 0x00020091

/-- The command for answering a message. -/
def c_Messaging_Reply : UInt32 := 0x00020092

/-- The position of the first end point with this address. -/
def FindEndPoint
    (m_endPoints : List CLR_RT_HeapBlock_EndPoint) (port : Port) :
    Option Nat :=
  m_endPoints.findIdx? fun endPoint =>
    endPoint.m_addr.m_type == port.m_type && endPoint.m_addr.m_id == port.m_id

/-- A message comes behind the others of an end point. -/
def CLR_RT_HeapBlock_EndPoint.LinkAtBack
    (endPoint : CLR_RT_HeapBlock_EndPoint) (rpc : EndPointMessage) :
    CLR_RT_HeapBlock_EndPoint :=
  { endPoint with m_messages := endPoint.m_messages ++ [rpc] }

variable {σ : Type} (heap : EventHeap σ)

/-- Copies `length` bytes of the payload from the offset `data` on into a new
message.  Both callers give an address for the data. -/
def AllocateAndQueueMessage (runtime : Runtime σ) (payload : Nat → UInt8)
    (cmd length : UInt32) (data : Nat) (port : Port) (addr : Address)
    (found : UInt32) : Bool × Runtime σ × List Access :=
  match FindEndPoint runtime.m_endPoints port with
  | none => (false, runtime, [])
  | some ep =>
      let (rpc, memory) :=
        runtime.memory.Allocate heap (sizeofMessage + length)
      match rpc with
      | none => (false, { runtime with memory := memory }, [])
      | some rpc =>
          let message : EndPointMessage :=
            { m_cmd := cmd
              m_addr := addr
              m_found := found
              m_length := length
              m_data := (List.range length.toNat).map fun index =>
                payload (data + index) }
          (true,
            { runtime with
              memory := memory
              m_endPoints :=
                runtime.m_endPoints.modify ep (·.LinkAtBack message)
              m_raisedEvents := runtime.m_raisedEvents ||| c_Event_EndPoint },
            [.block rpc.capacity 0 offsetofData, .payload data length.toNat,
              .block rpc.capacity offsetofData length.toNat])

/-- What the two handlers have in common: they queue the bytes behind the
address for one of its ports. -/
def queueForPort (cmd : UInt32) (port : Address → Port) (runtime : Runtime σ)
    (msg : Packet) : Handled σ :=
  let m_addr := addressAt msg.m_payload 0
  let len := msg.m_size - sizeofAddress
  let (fRes, later, accesses) :=
    AllocateAndQueueMessage heap runtime msg.m_payload cmd len
      sizeofAddress.toNat (port m_addr) m_addr 0
  { runtime := later
    accesses := .payload 0 sizeofAddress.toNat ::
      accesses ++ [.payload 0 sizeofAddress.toNat]
    reply := { fSuccess := fRes, m_found_m_addr := some (1, m_addr) } }

/-- `Messaging_Send`: the message goes to the end point it is sent to. -/
def Messaging_Send : Runtime σ → Packet → Handled σ :=
  queueForPort heap c_Messaging_Send Address.m_to

/-- `Messaging_Reply`: the message goes back to the end point it came from. -/
def Messaging_Reply : Runtime σ → Packet → Handled σ :=
  queueForPort heap c_Messaging_Reply Address.m_from

/-! ## What they are for -/

/-- A message is appended to the messages of the first end point with its
address. -/
def deliver (port : Port) (message : EndPointMessage) :
    List CLR_RT_HeapBlock_EndPoint → List CLR_RT_HeapBlock_EndPoint
  | [] => []
  | endPoint :: rest =>
      if endPoint.m_addr = port then
        endPoint.LinkAtBack message :: rest
      else
        endPoint :: deliver port message rest

/-- The message a packet carries: the bytes behind its address. -/
def carriedMessage (cmd : UInt32) (packet : Packet) : EndPointMessage where
  m_cmd := cmd
  m_addr := addressAt packet.m_payload 0
  m_found := 0
  m_length := packet.m_size - sizeofAddress
  m_data := packet.payloadFrom sizeofAddress.toNat

/-- An end point has this address. -/
def EndPointExists (runtime : Runtime σ) (port : Port) : Prop :=
  ∃ endPoint ∈ runtime.m_endPoints, endPoint.m_addr = port

/-- The payload has an address, and for an existing end point there is a block
for the message, whose length does not wrap around. -/
def MessageFits (port : Address → Port) (runtime : Runtime σ)
    (packet : Packet) : Prop :=
  sizeofAddress ≤ packet.m_size ∧
    (EndPointExists runtime (port (addressAt packet.m_payload 0)) →
      runtime.memory.Grants heap
          (sizeofMessage + (packet.m_size - sizeofAddress)) ∧
        runtime.memory.Holds
          (offsetofData + (packet.m_size - sizeofAddress).toNat) 4)

/-! ## End points are found -/

theorem findEndPoint_none
    {endPoints : List CLR_RT_HeapBlock_EndPoint}
    {port : Port}
    (found : FindEndPoint endPoints port = none) :
    ∀ endPoint ∈ endPoints, endPoint.m_addr ≠ port := by
  intro endPoint member same
  have differs := List.findIdx?_eq_none_iff.mp found endPoint member
  subst same
  simp at differs

theorem deliver_absent
    {port : Port}
    {message : EndPointMessage}
    {endPoints : List CLR_RT_HeapBlock_EndPoint}
    (absent : ∀ endPoint ∈ endPoints, endPoint.m_addr ≠ port) :
    deliver port message endPoints = endPoints := by
  induction endPoints with
  | nil => rfl
  | cons endPoint rest inductionHypothesis =>
      rw [deliver, if_neg (absent endPoint List.mem_cons_self)]
      rw [inductionHypothesis fun other member =>
        absent other (List.mem_cons_of_mem _ member)]

theorem port_eq_iff (left right : Port) :
    (left.m_type == right.m_type && left.m_id == right.m_id) = true ↔
      left = right := by
  rw [Bool.and_eq_true, beq_iff_eq, beq_iff_eq, Port.mk.injEq]

/-- Linking a message to the end point that is found delivers it. -/
theorem modify_findEndPoint
    {port : Port}
    {message : EndPointMessage}
    {endPoints : List CLR_RT_HeapBlock_EndPoint}
    {ep : Nat}
    (found : FindEndPoint endPoints port = some ep) :
    endPoints.modify ep (·.LinkAtBack message) =
      deliver port message endPoints := by
  induction endPoints generalizing ep with
  | nil => cases found
  | cons endPoint rest inductionHypothesis =>
      rw [FindEndPoint, List.findIdx?_cons] at found
      rw [deliver]
      by_cases same : endPoint.m_addr = port
      · rw [if_pos ((port_eq_iff _ _).mpr same)] at found
        rw [if_pos same]
        cases found
        rfl
      · rw [if_neg fun equal => same ((port_eq_iff _ _).mp equal)] at found
        rw [if_neg same]
        obtain ⟨position, isFound, rfl⟩ := Option.map_eq_some_iff.mp found
        rw [List.modify_succ_cons, inductionHypothesis isFound]

theorem exists_of_findEndPoint
    {endPoints : List CLR_RT_HeapBlock_EndPoint}
    {port : Port}
    {ep : Nat}
    (found : FindEndPoint endPoints port = some ep) :
    ∃ endPoint ∈ endPoints, endPoint.m_addr = port := by
  have some : ((FindEndPoint endPoints port).isSome) = true := by
    rw [found]
    rfl
  rw [FindEndPoint, List.findIdx?_isSome, List.any_eq_true] at some
  obtain ⟨endPoint, member, same⟩ := some
  exact ⟨endPoint, member, (port_eq_iff _ _).mp same⟩

/-- A delivered message makes a difference. -/
theorem deliver_ne
    {port : Port}
    {message : EndPointMessage}
    {endPoints : List CLR_RT_HeapBlock_EndPoint}
    (present : ∃ endPoint ∈ endPoints, endPoint.m_addr = port) :
    deliver port message endPoints ≠ endPoints := by
  induction endPoints with
  | nil =>
      obtain ⟨_, member, _⟩ := present
      cases member
  | cons endPoint rest inductionHypothesis =>
      rw [deliver]
      intro same
      split at same
      case isTrue =>
        have linked : endPoint.LinkAtBack message = endPoint :=
          (List.cons.inj same).1
        have longer := congrArg
          (fun other : CLR_RT_HeapBlock_EndPoint => other.m_messages.length)
          linked
        simp [CLR_RT_HeapBlock_EndPoint.LinkAtBack] at longer
      case isFalse differs =>
        obtain ⟨other, member, isPort⟩ := present
        cases member with
        | head => exact differs isPort
        | tail _ member =>
            exact inductionHypothesis ⟨other, member, isPort⟩
              (List.cons.inj same).2

/-! ## A message that fits is delivered, and no other -/

variable {heap} {cmd : UInt32} {port : Address → Port}
  {runtime : Runtime σ} {packet : Packet}

theorem toNat_length
    (complete : sizeofAddress ≤ packet.m_size) :
    (packet.m_size - sizeofAddress).toNat =
      packet.m_size.toNat - sizeofAddress.toNat :=
  UInt32.toNat_sub_of_le _ _ complete

/-- What is copied behind the address are the bytes behind it. -/
theorem copied_eq_payloadFrom
    (complete : sizeofAddress ≤ packet.m_size) :
    (List.range (packet.m_size - sizeofAddress).toNat).map
        (fun index => packet.m_payload (sizeofAddress.toNat + index)) =
      packet.payloadFrom sizeofAddress.toNat := by
  rw [Packet.payloadFrom, toNat_length complete]

/-- The block for a message holds it exactly where no length wraps around. -/
theorem message_holds
    {block : Block}
    (allocated : (runtime.memory.Allocate heap
      (sizeofMessage + (packet.m_size - sizeofAddress))).1 = some block) :
    offsetofData + (packet.m_size - sizeofAddress).toNat ≤ block.capacity ↔
      runtime.memory.Holds
        (offsetofData + (packet.m_size - sizeofAddress).toNat) 4 := by
  have bound := (packet.m_size - sizeofAddress).toNat_lt
  apply CLR_RT_Memory.allocate_holds _ _ _ _ allocated
  · simp only [offsetofData]
    omega
  · simp only [offsetofData]
    omega
  · omega
  · rw [UInt32.toNat_add]
    simp only [sizeofMessage, offsetofData, UInt32.reduceToNat]
    omega

theorem queueForPort_confined
    (fits : MessageFits heap port runtime packet) :
    ∀ access ∈ (queueForPort heap cmd port runtime packet).accesses,
      access.Confined packet.m_size runtime.m_pDebuggingInfo_MethodDef := by
  obtain ⟨complete, available⟩ := fits
  have whole : 0 + sizeofAddress.toNat ≤ packet.m_size.toNat := by
    rw [Nat.zero_add]
    exact complete
  have length := toNat_length complete
  unfold queueForPort AllocateAndQueueMessage
  intro access member
  cases found : FindEndPoint runtime.m_endPoints
      (port (addressAt packet.m_payload 0)) with
  | none =>
      simp only [found, List.nil_append, List.cons_append, List.mem_cons,
        List.not_mem_nil, or_false, or_self] at member
      subst member
      exact whole
  | some ep =>
      obtain ⟨granted, holds⟩ := available (exists_of_findEndPoint found)
      obtain ⟨block, allocated⟩ := CLR_RT_Memory.allocate_some granted
      have inside := (message_holds allocated).mpr holds
      simp only [found, allocated, List.cons_append, List.nil_append,
        List.mem_cons, List.not_mem_nil, or_false] at member
      rcases member with rfl | rfl | rfl | rfl | rfl
      · exact whole
      · show 0 + offsetofData ≤ block.capacity
        omega
      · show sizeofAddress.toNat + (packet.m_size - sizeofAddress).toNat ≤
          packet.m_size.toNat
        omega
      · exact inside
      · exact whole

theorem queueForPort_delivers
    (fits : MessageFits heap port runtime packet) :
    (queueForPort heap cmd port runtime packet).runtime.m_endPoints =
      deliver (port (addressAt packet.m_payload 0))
        (carriedMessage cmd packet) runtime.m_endPoints := by
  obtain ⟨complete, available⟩ := fits
  unfold queueForPort AllocateAndQueueMessage
  cases found : FindEndPoint runtime.m_endPoints
      (port (addressAt packet.m_payload 0)) with
  | none =>
      rw [deliver_absent (findEndPoint_none found)]
      simp only [found]
  | some ep =>
      obtain ⟨granted, _⟩ := available (exists_of_findEndPoint found)
      obtain ⟨block, allocated⟩ := CLR_RT_Memory.allocate_some granted
      simp only [found, allocated, copied_eq_payloadFrom complete]
      exact modify_findEndPoint found

/-- A handler that stays inside its payload and its block, and that delivers
the message, met both conditions. -/
theorem fits_of_queueForPort
    (confined : ∀ access ∈
      (queueForPort heap cmd port runtime packet).accesses,
      access.Confined packet.m_size runtime.m_pDebuggingInfo_MethodDef)
    (delivers :
      (queueForPort heap cmd port runtime packet).runtime.m_endPoints =
        deliver (port (addressAt packet.m_payload 0))
          (carriedMessage cmd packet) runtime.m_endPoints) :
    MessageFits heap port runtime packet := by
  have first : (Access.payload 0 sizeofAddress.toNat).Confined packet.m_size
      runtime.m_pDebuggingInfo_MethodDef :=
    confined _ List.mem_cons_self
  have complete : sizeofAddress ≤ packet.m_size := by
    rw [Access.Confined, Nat.zero_add] at first
    exact first
  refine ⟨complete, fun present => ?_⟩
  unfold queueForPort AllocateAndQueueMessage at confined delivers
  cases found : FindEndPoint runtime.m_endPoints
      (port (addressAt packet.m_payload 0)) with
  | none =>
      obtain ⟨endPoint, member, isPort⟩ := present
      exact absurd isPort (findEndPoint_none found endPoint member)
  | some ep =>
      cases allocated : (runtime.memory.Allocate heap
          (sizeofMessage + (packet.m_size - sizeofAddress))).1 with
      | none =>
          simp only [found, allocated] at delivers
          exact absurd delivers.symm (deliver_ne present)
      | some block =>
          simp only [found, allocated] at confined
          have inside : (Access.block block.capacity offsetofData
              (packet.m_size - sizeofAddress).toNat).Confined packet.m_size
                runtime.m_pDebuggingInfo_MethodDef :=
            confined _ (by simp)
          refine ⟨?_, (message_holds allocated).mp inside⟩
          by_contra refused
          rw [CLR_RT_Memory.allocate_none refused] at allocated
          cases allocated

/-- Nothing but messages, memory and events changes. -/
theorem queueForPort_frame :
    (queueForPort heap cmd port runtime packet).runtime.m_breakpoints =
        runtime.m_breakpoints ∧
      (queueForPort heap cmd port runtime
        packet).runtime.m_pDebuggingInfo_MethodDef =
          runtime.m_pDebuggingInfo_MethodDef := by
  unfold queueForPort AllocateAndQueueMessage
  dsimp only
  split
  · exact ⟨rfl, rfl⟩
  · split <;> exact ⟨rfl, rfl⟩

end Messaging

end NanoClr
