import NanoClr.Messaging.MemoryAllocate
import NanoClr.TypeSystem.Metadata

/-!
# Packets and the state they act on

A received packet as its handler sees it, the end points with their messages,
the installed breakpoint definitions, and the marks of the methods.  Handlers
note every access that depends on what was received.
-/

namespace NanoClr

namespace Messaging

open TypeSystem

/-! ## Packets -/

/-- The commands whose handlers take a length from the packet. -/
inductive Command where
  | Messaging_Send
  | Messaging_Reply
  | Debugging_Execution_Breakpoints
deriving DecidableEq

/-- A packet: its command, the size its header gives, and the bytes from the
address of its payload on, those behind the payload included. -/
structure Packet where
  m_cmd : Command
  m_size : UInt32
  m_payload : Nat → UInt8

/-- The bytes of the payload behind an offset. -/
def Packet.payloadFrom (packet : Packet) (offset : Nat) : List UInt8 :=
  (List.range (packet.m_size.toNat - offset)).map fun index =>
    packet.m_payload (offset + index)

/-- A half word, low byte first. -/
def halfWordAt (payload : Nat → UInt8) (offset : Nat) : UInt16 :=
  (payload offset).toUInt16 ||| (payload (offset + 1)).toUInt16 <<< 8

/-- A word, low byte first. -/
def wordAt (payload : Nat → UInt8) (offset : Nat) : UInt32 :=
  (halfWordAt payload offset).toUInt32 |||
    (halfWordAt payload (offset + 2)).toUInt32 <<< 16

/-! ## End points -/

/-- An end point by its type and its number. -/
structure Port where
  m_type : UInt32
  m_id : UInt32
deriving DecidableEq

/-- The address of a message: its number, and the end points it goes from and
to. -/
structure Address where
  m_seq : UInt32
  m_from : Port
  m_to : Port
deriving DecidableEq

/-- An end point in a payload. -/
def portAt (payload : Nat → UInt8) (offset : Nat) : Port where
  m_type := wordAt payload offset
  m_id := wordAt payload (offset + 4)

/-- An address in a payload. -/
def addressAt (payload : Nat → UInt8) (offset : Nat) : Address where
  m_seq := wordAt payload offset
  m_from := portAt payload (offset + 4)
  m_to := portAt payload (offset + 12)

/-- A message in the list of an end point. -/
structure EndPointMessage where
  m_cmd : UInt32
  m_addr : Address
  m_found : UInt32
  m_length : UInt32
  m_data : List UInt8
deriving DecidableEq

/-- An end point with its messages, the oldest one first. -/
structure CLR_RT_HeapBlock_EndPoint where
  m_addr : Port
  m_messages : List EndPointMessage
deriving DecidableEq

/-! ## Breakpoints -/

/-- The flags of the three kinds of steps. -/
def c_STEP : UInt16 := 0x0001 ||| 0x0002 ||| 0x0004

/-- The flag of a breakpoint in a method. -/
def c_HARD : UInt16 := 0x0008

/-- The flag of a step that stays in the code of the user. -/
def c_STEP_JMC : UInt16 := 0x0800

/-- A breakpoint as the debugger sends it. -/
structure Debugging_Execution_BreakpointDef where
  m_id : UInt16
  m_flags : UInt16
  m_pid : Int32
  m_depth : UInt32
  m_IPStart : UInt32
  m_IPEnd : UInt32
  m_md : CLR_RT_MethodDef_Index
  m_IP : UInt32
  m_td : CLR_RT_TypeDef_Index
  m_depthExceptionHandler : UInt32
deriving DecidableEq

/-- The bytes of a breakpoint definition. -/
def sizeofBreakpointDef : UInt32 := 36

/-- A definition in a payload. -/
def breakpointDefAt (payload : Nat → UInt8) (offset : Nat) :
    Debugging_Execution_BreakpointDef where
  m_id := halfWordAt payload offset
  m_flags := halfWordAt payload (offset + 2)
  m_pid := (wordAt payload (offset + 4)).toInt32
  m_depth := wordAt payload (offset + 8)
  m_IPStart := wordAt payload (offset + 12)
  m_IPEnd := wordAt payload (offset + 16)
  m_md := ⟨wordAt payload (offset + 20)⟩
  m_IP := wordAt payload (offset + 24)
  m_td := ⟨wordAt payload (offset + 28)⟩
  m_depthExceptionHandler := wordAt payload (offset + 32)

/-- The array the definitions were copied to: its address and contents. -/
structure InstalledBreakpoints where
  address : Nat
  definitions : List Debugging_Execution_BreakpointDef

/-! ## Methods and threads -/

/-- The debugging information of a method. -/
structure CLR_RT_MethodDef_DebuggingInfo where
  m_flags : UInt8
deriving DecidableEq

/-- The flag of the mark. -/
def MD_DI_HasBreakpoint : UInt8 := 0x02

/-- `HasBreakpoint`. -/
def CLR_RT_MethodDef_DebuggingInfo.HasBreakpoint
    (info : CLR_RT_MethodDef_DebuggingInfo) : Bool :=
  info.m_flags &&& MD_DI_HasBreakpoint != 0

/-- `SetBreakpoint`: the mark is set or cleared. -/
def CLR_RT_MethodDef_DebuggingInfo.SetBreakpoint
    (info : CLR_RT_MethodDef_DebuggingInfo) (b : Bool) :
    CLR_RT_MethodDef_DebuggingInfo where
  m_flags :=
    if b then
      info.m_flags ||| MD_DI_HasBreakpoint
    else
      info.m_flags &&& ~~~MD_DI_HasBreakpoint

/-- The debugging information of the methods of every loaded assembly. -/
abbrev MethodTables :=
  List (Option (List CLR_RT_MethodDef_DebuggingInfo))

/-- `DebuggingInfo` of a method; indices of assemblies count from one. -/
def MethodTables.DebuggingInfo (tables : MethodTables)
    (method : CLR_RT_MethodDef_Index) :
    Option CLR_RT_MethodDef_DebuggingInfo :=
  match method.Assembly with
  | 0 => none
  | slot + 1 => tables[slot]?.join.bind fun methods => methods[method.Method]?

/-- The method carries the breakpoint mark. -/
def MethodTables.HasBreakpoint (tables : MethodTables)
    (method : CLR_RT_MethodDef_Index) : Bool :=
  (tables.DebuggingInfo method).any
    CLR_RT_MethodDef_DebuggingInfo.HasBreakpoint

/-- A stack frame as far as breakpoints are concerned. -/
structure CLR_RT_StackFrame where
  m_call : CLR_RT_MethodDef_Index
  m_depth : UInt32
  c_HasBreakpoint : Bool
  m_inlineFrame_m_call : Option CLR_RT_MethodDef_Index

/-- A thread as far as breakpoints are concerned. -/
structure CLR_RT_Thread where
  m_pid : Int32
  m_fHasJMCStepper : Bool
  m_stackFrames : List CLR_RT_StackFrame

/-! ## The state of the runtime -/

/-- What the handlers of the commands read and write. -/
structure Runtime (σ : Type) where
  memory : CLR_RT_Memory σ
  m_endPoints : List CLR_RT_HeapBlock_EndPoint
  m_raisedEvents : UInt32
  m_pDebuggingInfo_MethodDef : MethodTables
  m_breakpoints : Option InstalledBreakpoints
  m_threadsReady : List CLR_RT_Thread
  m_threadsWaiting : List CLR_RT_Thread

/-- The first `m_breakpointsNum` definitions of `m_breakpoints`. -/
def Runtime.breakpoints {σ : Type} (runtime : Runtime σ) :
    List Debugging_Execution_BreakpointDef :=
  runtime.m_breakpoints.elim [] InstalledBreakpoints.definitions

/-- An access that depends on what was received: bytes that are read from the
payload, bytes that are written to an allocated block, or the mark of a method
that a definition names. -/
inductive Access where
  | payload (offset length : Nat)
  | block (capacity offset length : Nat)
  | debuggingInfo (method : CLR_RT_MethodDef_Index)

/-- The access stays inside the payload, inside the block, or with a method
that exists. -/
def Access.Confined (size : UInt32) (tables : MethodTables) : Access → Prop
  | .payload offset length => offset + length ≤ size.toNat
  | .block capacity offset length => offset + length ≤ capacity
  | .debuggingInfo method => (tables.DebuggingInfo method).isSome

/-- What is sent back with `WP_ReplyToCommand`. -/
structure CommandReply where
  fSuccess : Bool
  m_found_m_addr : Option (UInt32 × Address)

/-- What a handler leaves behind. -/
structure Handled (σ : Type) where
  runtime : Runtime σ
  accesses : List Access
  reply : CommandReply

end Messaging

end NanoClr
