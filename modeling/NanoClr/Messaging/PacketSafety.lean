import NanoClr.Messaging.InstallBreakpoints
import NanoClr.Messaging.QueueMessage

/-!
# Lengths from the wire

Sequences of packets are handled inside their payloads and blocks, with every
message delivered and every mark exact, exactly where each packet fits.
-/

namespace NanoClr

namespace Messaging

/-! ## Sequences of packets -/

variable {σ : Type} (heap : EventHeap σ)

/-- Hands a packet to its handler. -/
def receive (runtime : Runtime σ) (packet : Packet) : Handled σ :=
  match packet.m_cmd with
  | .Messaging_Send => Messaging_Send heap runtime packet
  | .Messaging_Reply => Messaging_Reply heap runtime packet
  | .Debugging_Execution_Breakpoints =>
      Debugging_Execution_Breakpoints heap runtime packet

/-- The runtime after a sequence of packets. -/
def receiveAll (runtime : Runtime σ) (packets : List Packet) : Runtime σ :=
  packets.foldl (fun runtime packet => (receive heap runtime packet).runtime)
    runtime

/-- The end points as they should be after a packet: its message behind the
others of the first end point it is for. -/
def deliverPacket (m_endPoints : List CLR_RT_HeapBlock_EndPoint)
    (packet : Packet) : List CLR_RT_HeapBlock_EndPoint :=
  let m_addr := addressAt packet.m_payload 0
  match packet.m_cmd with
  | .Messaging_Send =>
      deliver m_addr.m_to (carriedMessage c_Messaging_Send packet) m_endPoints
  | .Messaging_Reply =>
      deliver m_addr.m_from (carriedMessage c_Messaging_Reply packet)
        m_endPoints
  | .Debugging_Execution_Breakpoints => m_endPoints

/-- What is promised of a sequence of packets. -/
structure HandledSafely (runtime : Runtime σ) (packets : List Packet) :
    Prop where
  confined : ∀ earlier packet later, packets = earlier ++ packet :: later →
    ∀ access ∈
        (receive heap (receiveAll heap runtime earlier) packet).accesses,
      access.Confined packet.m_size
        (receiveAll heap runtime earlier).m_pDebuggingInfo_MethodDef
  delivered : ∀ earlier, earlier <+: packets →
    (receiveAll heap runtime earlier).m_endPoints =
      earlier.foldl deliverPacket runtime.m_endPoints
  installed : ∀ earlier packet later, packets = earlier ++ packet :: later →
    packet.m_cmd = .Debugging_Execution_Breakpoints →
      (receiveAll heap runtime (earlier ++ [packet])).breakpoints = [] ∨
        (receiveAll heap runtime (earlier ++ [packet])).breakpoints =
          completeDefinitions packet
  marked : ∀ earlier, earlier <+: packets →
    MarksExact (receiveAll heap runtime earlier)

/-- The packet fits the runtime that receives it. -/
def Fits (runtime : Runtime σ) (packet : Packet) : Prop :=
  match packet.m_cmd with
  | .Messaging_Send => MessageFits heap Address.m_to runtime packet
  | .Messaging_Reply => MessageFits heap Address.m_from runtime packet
  | .Debugging_Execution_Breakpoints => BreakpointsFit heap runtime packet

/-- Before the first packet: no definition is installed and no method
marked. -/
structure Unbroken (runtime : Runtime σ) : Prop where
  empty : runtime.m_breakpoints = none
  unmarked : ∀ method,
    runtime.m_pDebuggingInfo_MethodDef.HasBreakpoint method = false

/-! ## One packet -/

variable {heap} {runtime : Runtime σ} {packet : Packet}

/-- What is promised of one packet. -/
structure PacketSafe (heap : EventHeap σ) (runtime : Runtime σ)
    (packet : Packet) : Prop where
  confined : ∀ access ∈ (receive heap runtime packet).accesses,
    access.Confined packet.m_size runtime.m_pDebuggingInfo_MethodDef
  delivered : (receive heap runtime packet).runtime.m_endPoints =
    deliverPacket runtime.m_endPoints packet
  installed : packet.m_cmd = .Debugging_Execution_Breakpoints →
    (receive heap runtime packet).runtime.breakpoints = [] ∨
      (receive heap runtime packet).runtime.breakpoints =
        completeDefinitions packet
  marked : MarksExact (receive heap runtime packet).runtime

/-- The marks are exact, and for methods that exist. -/
structure MarksConsistent (runtime : Runtime σ) : Prop where
  exact : MarksExact runtime
  installed : InstalledNamed runtime

theorem Unbroken.marksConsistent
    (unbroken : Unbroken runtime) :
    MarksConsistent runtime := by
  have empty : runtime.breakpoints = [] := by
    rw [Runtime.breakpoints, unbroken.empty]
    rfl
  constructor
  · intro method _
    rw [unbroken.unmarked, empty]
    simp [Named]
  · intro definition member
    rw [empty] at member
    cases member

/-- A handler for messages leaves the marks alone. -/
theorem queueForPort_marks
    {cmd : UInt32}
    {port : Address → Port}
    (consistent : MarksConsistent runtime) :
    MarksConsistent (queueForPort heap cmd port runtime packet).runtime := by
  obtain ⟨breakpoints, tables⟩ :=
    @queueForPort_frame σ heap cmd port runtime packet
  obtain ⟨exact, installed⟩ := consistent
  rw [MarksExact] at exact
  rw [InstalledNamed] at installed
  constructor
  · rw [MarksExact, Runtime.breakpoints, breakpoints, tables]
    exact exact
  · rw [InstalledNamed, Runtime.breakpoints, breakpoints, tables]
    exact installed

/-- A message is handled safely exactly when it fits. -/
theorem message_safe_iff
    {cmd : UInt32}
    {port : Address → Port}
    (consistent : MarksConsistent runtime)
    (isMessage : packet.m_cmd ≠ .Debugging_Execution_Breakpoints)
    (received : receive heap runtime packet =
      queueForPort heap cmd port runtime packet)
    (delivers : deliverPacket runtime.m_endPoints packet =
      deliver (port (addressAt packet.m_payload 0))
        (carriedMessage cmd packet) runtime.m_endPoints) :
    PacketSafe heap runtime packet ↔
      MessageFits heap port runtime packet := by
  constructor
  · rintro ⟨confined, delivered, _, _⟩
    rw [received] at confined delivered
    rw [delivers] at delivered
    exact fits_of_queueForPort confined delivered
  · intro fits
    constructor
    · rw [received]
      exact queueForPort_confined fits
    · rw [received, delivers]
      exact queueForPort_delivers fits
    · exact fun isBreakpoints => absurd isBreakpoints isMessage
    · rw [received]
      exact (queueForPort_marks consistent).exact

theorem packetSafe_iff
    (consistent : MarksConsistent runtime) :
    PacketSafe heap runtime packet ↔ Fits heap runtime packet := by
  cases isCommand : packet.m_cmd with
  | Messaging_Send =>
      rw [Fits, isCommand]
      apply message_safe_iff consistent
      · simp [isCommand]
      · rw [receive, isCommand]
        rfl
      · rw [deliverPacket, isCommand]
  | Messaging_Reply =>
      rw [Fits, isCommand]
      apply message_safe_iff consistent
      · simp [isCommand]
      · rw [receive, isCommand]
        rfl
      · rw [deliverPacket, isCommand]
  | Debugging_Execution_Breakpoints =>
      have received : receive heap runtime packet =
          Debugging_Execution_Breakpoints heap runtime packet := by
        rw [receive, isCommand]
      rw [Fits, isCommand]
      constructor
      · rintro ⟨confined, _, _, _⟩
        rw [received] at confined
        exact (breakpoints_confined_iff consistent.installed).mp confined
      · intro fits
        constructor
        · rw [received]
          exact (breakpoints_confined_iff consistent.installed).mpr fits
        · rw [received, breakpoints_endPoints, deliverPacket, isCommand]
        · intro _
          rw [received]
          exact breakpoints_complete fits
        · rw [received]
          exact breakpoints_marksExact consistent.exact

theorem MarksConsistent.receive
    (consistent : MarksConsistent runtime)
    (fits : Fits heap runtime packet) :
    MarksConsistent (receive heap runtime packet).runtime := by
  rw [Fits] at fits
  rw [Messaging.receive]
  split at fits
  · exact queueForPort_marks consistent
  · exact queueForPort_marks consistent
  · constructor
    · exact breakpoints_marksExact consistent.exact
    · exact breakpoints_installedNamed fits

/-! ## Sequences -/

section Sequences

variable {packets : List Packet}

theorem receiveAll_concat (earlier : List Packet) :
    receiveAll heap runtime (earlier ++ [packet]) =
      (receive heap (receiveAll heap runtime earlier) packet).runtime := by
  rw [receiveAll, List.foldl_append]
  rfl

/-- The marks stay consistent as long as the packets fit. -/
theorem marksConsistent_receiveAll
    (consistent : MarksConsistent runtime)
    {earlier : List Packet}
    (isPrefix : earlier <+: packets)
    (fit : ∀ earlier packet later, packets = earlier ++ packet :: later →
      MarksConsistent (receiveAll heap runtime earlier) →
        Fits heap (receiveAll heap runtime earlier) packet) :
    MarksConsistent (receiveAll heap runtime earlier) := by
  induction earlier using List.reverseRecOn with
  | nil => exact consistent
  | append_singleton earlier packet inductionHypothesis =>
      obtain ⟨later, split⟩ := isPrefix
      have before := inductionHypothesis ⟨packet :: later, by simp [← split]⟩
      rw [receiveAll_concat]
      apply before.receive
      exact fit earlier packet later (by simp [← split]) before

/-- A sequence is handled safely when each of its packets is. -/
theorem handledSafely_iff
    (exact : MarksExact runtime) :
    HandledSafely heap runtime packets ↔
      ∀ earlier packet later, packets = earlier ++ packet :: later →
        PacketSafe heap (receiveAll heap runtime earlier) packet := by
  constructor
  · intro safe earlier packet later split
    have whole : earlier ++ [packet] <+: packets :=
      ⟨later, by simp [split]⟩
    have before : earlier <+: packets := ⟨packet :: later, split.symm⟩
    constructor
    · exact safe.confined earlier packet later split
    · have delivered := safe.delivered _ whole
      rw [receiveAll_concat, List.foldl_append,
        ← safe.delivered _ before] at delivered
      exact delivered
    · rw [← receiveAll_concat]
      exact safe.installed earlier packet later split
    · rw [← receiveAll_concat]
      exact safe.marked _ whole
  · intro safe
    constructor
    · intro earlier packet later split
      exact (safe earlier packet later split).confined
    · intro earlier isPrefix
      induction earlier using List.reverseRecOn with
      | nil => rfl
      | append_singleton earlier packet inductionHypothesis =>
          obtain ⟨later, split⟩ := isPrefix
          have before :=
            inductionHypothesis ⟨packet :: later, by simp [← split]⟩
          have one := safe earlier packet later (by simp [← split])
          rw [receiveAll_concat, one.delivered, before, List.foldl_append]
          rfl
    · intro earlier packet later split
      rw [receiveAll_concat]
      exact (safe earlier packet later split).installed
    · intro earlier isPrefix
      cases earlier using List.reverseRecOn with
      | nil => exact exact
      | append_singleton earlier packet =>
          obtain ⟨later, split⟩ := isPrefix
          rw [receiveAll_concat]
          exact (safe earlier packet later (by simp [← split])).marked

/-- Sequences of packets are handled safely exactly when every packet fits the
runtime that receives it. -/
theorem packets_handledSafely_iff
    (unbroken : Unbroken runtime) :
    HandledSafely heap runtime packets ↔
      ∀ earlier packet later, packets = earlier ++ packet :: later →
        Fits heap (receiveAll heap runtime earlier) packet := by
  have consistent := unbroken.marksConsistent
  rw [handledSafely_iff consistent.exact]
  constructor
  · intro safe earlier packet later split
    apply (packetSafe_iff _).mp (safe earlier packet later split)
    apply marksConsistent_receiveAll consistent ⟨_, split.symm⟩
    intro earlier packet later split before
    exact (packetSafe_iff before).mp (safe earlier packet later split)
  · intro fit earlier packet later split
    apply (packetSafe_iff _).mpr (fit earlier packet later split)
    apply marksConsistent_receiveAll consistent ⟨_, split.symm⟩
    intro earlier packet later split _
    exact fit earlier packet later split

end Sequences

/-! ## A device -/

/-- An event cache that cuts nodes of the size that was asked for off a number
of free heap blocks. -/
def freeBlocks : EventHeap Nat where
  Extract_Node free blocks :=
    if blocks.toNat ≤ free ∧ blocks.toNat < 2 ^ 16 then
      (some { address := 12 * free, blocks := blocks.toNat },
        free - blocks.toNat)
    else
      (none, free)
  Append_Node free _ := free
  large free blocks node extracted := by
    split at extracted
    · cases extracted
      exact Nat.le_refl _
    · cases extracted
  bounded free blocks node extracted := by
    split at extracted
    case isTrue available =>
      cases extracted
      exact available.2
    · cases extracted

/-- One end point, one assembly with two methods, and a laid out heap. -/
def device : Runtime Nat where
  memory :=
    { heapStart := 0
      heapSize := 12000
      s_CLR_RT_Heap_m_size := 12000
      s_PreHeapInitIndex := 0
      g_CLR_RT_EventCache := 1000 }
  m_endPoints := [{ m_addr := ⟨0, 0⟩, m_messages := [] }]
  m_raisedEvents := 0
  m_pDebuggingInfo_MethodDef := [some [⟨0⟩, ⟨0⟩]]
  m_breakpoints := none
  m_threadsReady := []
  m_threadsWaiting := []

theorem unbroken_device : Unbroken device where
  empty := rfl
  unmarked method := by
    rw [MethodTables.HasBreakpoint, MethodTables.DebuggingInfo]
    have unmarked : ∀ slot index : Nat,
        (device.m_pDebuggingInfo_MethodDef[slot]?.join.bind
          fun methods => methods[index]?).any
            CLR_RT_MethodDef_DebuggingInfo.HasBreakpoint = false := by
      intro slot index
      cases slot with
      | zero => rcases index with _ | _ | _ <;> rfl
      | succ => rfl
    split
    · rfl
    · exact unmarked _ _

/-- An address of zeros and two bytes for the end point behind it. -/
def twoBytes : Packet where
  m_cmd := .Messaging_Send
  m_size := 22
  m_payload _ := 0

/-- A hard breakpoint in the second method of the assembly. -/
def hardBreakpoint : Packet where
  m_cmd := .Debugging_Execution_Breakpoints
  m_size := 40
  m_payload := fun offset =>
    if offset = 6 then 0x08 else if offset = 24 then 0x01
    else if offset = 26 then 0x01 else 0

/-- The answer to a message that the device has sent. -/
def reply : Packet :=
  { twoBytes with m_cmd := .Messaging_Reply }

theorem twoBytes_fits : Fits freeBlocks device twoBytes := by
  refine ⟨by decide, fun _ => ⟨?_, ?_⟩⟩
  · rw [CLR_RT_Memory.Grants, if_neg (by decide)]
    decide
  · rw [CLR_RT_Memory.Holds, if_neg (by decide)]
    decide

theorem hardBreakpoint_fits :
    Fits freeBlocks (receiveAll freeBlocks device [twoBytes])
      hardBreakpoint := by
  refine .inr (.inr ⟨by decide, ?_, ?_⟩)
  · rw [CLR_RT_Memory.Holds, if_neg (by decide)]
    decide
  · rw [NameMethods]
    decide

theorem reply_fits :
    Fits freeBlocks (receiveAll freeBlocks device [twoBytes, hardBreakpoint])
      reply := by
  refine ⟨by decide, fun _ => ⟨?_, ?_⟩⟩
  · rw [CLR_RT_Memory.Grants, if_neg (by decide)]
    decide
  · rw [CLR_RT_Memory.Holds, if_neg (by decide)]
    decide

/-- A message, a breakpoint in a method and a reply. -/
theorem packets_handledSafely_three :
    HandledSafely freeBlocks device [twoBytes, hardBreakpoint, reply] := by
  apply (packets_handledSafely_iff unbroken_device).mpr
  intro earlier packet later split
  rcases earlier with _ | ⟨first, _ | ⟨second, _ | ⟨third, rest⟩⟩⟩
  · cases split
    exact twoBytes_fits
  · cases split
    exact hardBreakpoint_fits
  · cases split
    exact reply_fits
  · simp at split

/-- A command for breakpoints without even its flags. -/
def noFlags : Packet where
  m_cmd := .Debugging_Execution_Breakpoints
  m_size := 0
  m_payload _ := 0

/-- The length of the definitions wraps around, and so does the length of
their block: four billion bytes are copied to a block of twelve. -/
theorem packets_notHandledSafely :
    Unbroken device ∧ ¬ HandledSafely freeBlocks device [noFlags] := by
  refine ⟨unbroken_device, fun safe => ?_⟩
  have confined := safe.confined [] noFlags [] rfl
  have allocated : ((releaseBreakpoints freeBlocks device).memory.Allocate
      freeBlocks (definitionCount noFlags.m_size * sizeofBreakpointDef)).1 =
        some { address := 12016, capacity := 0 } := rfl
  have copies := (copiedFor_some (by decide) allocated).2
  have payload : Access.Confined 0 device.m_pDebuggingInfo_MethodDef
      (.payload 4 4294967292) := by
    apply confined
    show _ ∈ (Debugging_Execution_Breakpoints _ _ _).accesses
    rw [breakpoints_accesses]
    apply List.mem_append_left
    apply List.mem_append_right
    show _ ∈ (copiedFor freeBlocks device noFlags).2
    rw [copies]
    exact List.mem_cons_self
  have inside : 4 + 4294967292 ≤ (0 : UInt32).toNat := payload
  exact absurd inside (by decide)

end Messaging

end NanoClr
