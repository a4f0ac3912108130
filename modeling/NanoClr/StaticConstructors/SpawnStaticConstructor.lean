import NanoClr.Library.TransitionSystem
import NanoClr.Scheduling.ScheduleThreads
import NanoClr.TypeSystem.Metadata

/-!
# Static constructors

The static constructor thread of the execution engine: one constructor after
another is put on the thread, and the end of each one calls the engine back to
find the next.  An assembly is named by its slot in the type system.
-/

namespace NanoClr

namespace StaticConstructors

open Scheduling (ThreadStatus)
open TypeSystem (CLR_RT_MethodDef_Index setIndex CLR_EmptyIndex)

/-! ## Assemblies -/

/-- The flag of a static constructor. -/
def MD_StaticConstructor : UInt32 := 0x00002000

/-- The flag of the method that invokes a delegate. -/
def MD_DelegateInvoke : UInt32 := 0x00020000

/-- `CLR_RT_Assembly::StaticConstructorsExecuted`. -/
def StaticConstructorsExecuted : UInt32 := 0x00000020

/-- The number of slots for assemblies. -/
def c_MaxAssemblies : Nat := 64

/-- The record of a method, as far as static constructors are concerned. -/
structure CLR_RECORD_METHODDEF where
  RVA : Nat
  flags : UInt32

/-- An assembly: its methods, for which of them there is native code, and the
slots that its assembly references are resolved to. -/
structure CLR_RT_Assembly where
  m_idx : UInt32
  methodDefs : List CLR_RECORD_METHODDEF
  m_nativeCode : Option (Nat → Bool)
  m_pCrossReference_AssemblyRef : List Nat

/-- The index of a method of the assembly in a slot. -/
def methodIndex (slot method : Nat) : CLR_RT_MethodDef_Index :=
  ⟨setIndex (.ofNat (slot + 1)) (.ofNat method)⟩

/-- The assemblies in their slots: each one knows its slot, its methods can be
numbered by an index, and its references are resolved. -/
structure ResolvedAssemblies where
  m_assemblies : List (Option CLR_RT_Assembly)
  max_le : m_assemblies.length ≤ c_MaxAssemblies
  idx_eq : ∀ (slot : Nat) (assembly : CLR_RT_Assembly),
    m_assemblies[slot]? = some (some assembly) →
      assembly.m_idx = .ofNat (slot + 1)
  methods_le : ∀ (slot : Nat) (assembly : CLR_RT_Assembly),
    m_assemblies[slot]? = some (some assembly) →
      assembly.methodDefs.length ≤ 0xFFFF
  resolved : ∀ (slot : Nat) (assembly : CLR_RT_Assembly),
    m_assemblies[slot]? = some (some assembly) →
      ∀ target ∈ assembly.m_pCrossReference_AssemblyRef,
        ∃ referenced, m_assemblies[target]? = some (some referenced)

namespace ResolvedAssemblies

variable (assemblies : ResolvedAssemblies)

/-- The assembly in a slot. -/
def assembly (slot : Nat) : Option CLR_RT_Assembly :=
  assemblies.m_assemblies[slot]?.join

/-- The slots up to `m_assembliesMax`, in the order of linking. -/
def slots : List Nat :=
  List.range assemblies.m_assemblies.length

end ResolvedAssemblies

namespace CLR_RT_Assembly

variable (assembly : CLR_RT_Assembly)

/-- A method of an assembly is a static constructor. -/
def isStaticConstructor (method : Nat) : Bool :=
  match assembly.methodDefs[method]? with
  | none => false
  | some methodDef => methodDef.flags &&& MD_StaticConstructor != 0

/-- The next static constructor from an index on. -/
def FindNextStaticConstructor (idx : CLR_RT_MethodDef_Index) :
    Option CLR_RT_MethodDef_Index :=
  (List.range' idx.Method (assembly.methodDefs.length - idx.Method)).find?
    assembly.isStaticConstructor |>.map
      fun method => ⟨setIndex assembly.m_idx (.ofNat method)⟩

/-- Whether a stack frame can be made for a method: it invokes a delegate, or
has native code, or has byte code. -/
def hasCode (method : Nat) : Bool :=
  match assembly.methodDefs[method]? with
  | none => false
  | some methodDef =>
      methodDef.flags &&& MD_DelegateInvoke != 0 ||
        (assembly.m_nativeCode.any fun native => native method) ||
        methodDef.RVA != CLR_EmptyIndex

end CLR_RT_Assembly

/-! ## The constructor thread -/

/-- How the allocations for one constructor end: without a delegate, with a
delegate but without a stack frame, or with both. -/
inductive AllocationOutcome where
  | noDelegate
  | noFrame
  | allocated
deriving DecidableEq

/-- What a start-up depends on: the assemblies with their flags, whether the
constructor thread can be created, how the allocations for each constructor
end, and whether the thread is still referenced when it is destroyed. -/
structure StartUp where
  assemblies : ResolvedAssemblies
  flags : Nat → UInt32
  notExecuted : ∀ slot, flags slot &&& StaticConstructorsExecuted = 0
  threadCreated : Bool
  outcomes : Nat → AllocationOutcome
  referenced : Bool

/-- The static constructor thread: its delegate is the method that it calls,
and its frame the method that runs on it. -/
structure CctorThread where
  m_status : ThreadStatus
  system : Bool
  m_dlg : Option CLR_RT_MethodDef_Index
  m_terminationCallback : Bool
  frame : Option CLR_RT_MethodDef_Index

/-- `CanThreadBeReused`: a system thread that does not run. -/
def CctorThread.CanThreadBeReused (thread : CctorThread) : Bool :=
  thread.system &&
    (thread.m_status = .TH_S_Terminated ∨ thread.m_status = .TH_S_Unstarted)

/-- The end of `Passivate`: a thread that does not go on drops its delegate. -/
def CctorThread.clearDelegate (thread : CctorThread) : CctorThread :=
  if thread.m_status = .TH_S_Terminated ∨ thread.m_status = .TH_S_Unstarted then
    { thread with m_dlg := none }
  else
    thread

/-- What happens to a static constructor. -/
inductive Event where
  | started (constructor : CLR_RT_MethodDef_Index)
  | ended (constructor : CLR_RT_MethodDef_Index)
deriving DecidableEq

/-- The engine as far as static constructors concern it.  `attempts` counts the
constructors for which an allocation was tried, and `destroyed` records that
the thread was destroyed. -/
structure CLR_RT_ExecutionEngine where
  m_flags : Nat → UInt32
  m_cctorThread : Option CctorThread
  attempts : Nat
  history : List Event
  destroyed : Bool

namespace CLR_RT_ExecutionEngine

variable (startUp : StartUp) (engine : CLR_RT_ExecutionEngine)

/-- The static constructors of an assembly have run. -/
def executed (slot : Nat) : Bool :=
  engine.m_flags slot &&& StaticConstructorsExecuted != 0

/-- The static constructors of an assembly are taken to have run. -/
def setExecuted (slot : Nat) : CLR_RT_ExecutionEngine :=
  { engine with
    m_flags := Function.update engine.m_flags slot
      (engine.m_flags slot ||| StaticConstructorsExecuted) }

/-- The thread that `NewThread` makes for the system. -/
def newSystemThread : CctorThread where
  m_status := .TH_S_Unstarted
  system := true
  m_dlg := none
  m_terminationCallback := false
  frame := none

/-- `EnsureSystemThread`: whether there is a thread that can be used. -/
def EnsureSystemThread : Bool × CLR_RT_ExecutionEngine :=
  match engine.m_cctorThread with
  | none =>
      if startUp.threadCreated then
        (true, { engine with m_cctorThread := some newSystemThread })
      else
        (false, engine)
  | some thread => (thread.CanThreadBeReused, engine)

/-- `PushThreadProcDelegate`: the delegate stays on the thread, and the thread
ready, when there is no frame for it. -/
def PushThreadProcDelegate (thread : CctorThread)
    (pDelegate : CLR_RT_MethodDef_Index) (frameAllocated : Bool) :
    Bool × CctorThread :=
  match startUp.assemblies.assembly (pDelegate.Assembly - 1) with
  | none => (false, thread)
  | some assembly =>
      let thread :=
        { thread with m_dlg := some pDelegate, m_status := .TH_S_Ready }
      if frameAllocated && assembly.hasCode pDelegate.Method then
        (true, { thread with frame := some pDelegate })
      else
        (false, thread)

/-- Whether the constructor that was found could be started. -/
def SpawnStaticConstructorHelper (assembly : CLR_RT_Assembly) (slot : Nat)
    (idx : CLR_RT_MethodDef_Index) : Bool × CLR_RT_ExecutionEngine :=
  match assembly.FindNextStaticConstructor idx, engine.m_cctorThread with
  | some idxNext, some thread =>
      let outcome := startUp.outcomes engine.attempts
      let engine := { engine with attempts := engine.attempts + 1 }
      if outcome = .noDelegate then
        (false, engine.setExecuted slot)
      else
        let (pushed, thread) :=
          PushThreadProcDelegate startUp thread idxNext (outcome = .allocated)
        if pushed then
          (true, { engine with
            m_cctorThread := some { thread with m_terminationCallback := true }
            history := engine.history ++ [.started idxNext] })
        else
          (false, { engine with m_cctorThread := some thread }.setExecuted slot)
  | _, _ => (false, engine.setExecuted slot)

/-- `Passivate` of the constructor thread.  The thread is gone when the callback
has destroyed it. -/
def Passivate
    (terminationCallback : CLR_RT_ExecutionEngine → CLR_RT_ExecutionEngine) :
    CLR_RT_ExecutionEngine :=
  match engine.m_cctorThread with
  | none => engine
  | some thread =>
      let m_status :=
        if thread.system then ThreadStatus.TH_S_Unstarted else .TH_S_Terminated
      let engine := { engine with
        m_cctorThread :=
          some { thread with m_status, m_terminationCallback := false } }
      let engine :=
        if thread.m_terminationCallback then terminationCallback engine
        else engine
      { engine with
        m_cctorThread := engine.m_cctorThread.map CctorThread.clearDelegate }

/-- `DestroyInstance` of the constructor thread: its callback is cleared by
then. -/
def DestroyInstance : CLR_RT_ExecutionEngine :=
  let engine := engine.Passivate id
  { engine with
    m_cctorThread :=
      if startUp.referenced then
        engine.m_cctorThread.map fun thread => { thread with system := false }
      else none
    destroyed := true }

/-- `fDepedenciesRun` after the loop over the assembly references; a reference
whose constructors have not run leaves it set as well. -/
def fDepedenciesRun : List Nat → Bool
  | [] => true
  | target :: targets =>
      if engine.m_flags target &&& StaticConstructorsExecuted = 0 then true
      else fDepedenciesRun targets

/-- The loop of `SpawnStaticConstructor` over the assemblies, and what follows
it. -/
def spawnInAssemblies :
    List Nat → CLR_RT_ExecutionEngine → CLR_RT_ExecutionEngine
  | [], engine => engine.DestroyInstance startUp
  | slot :: slots, engine =>
      match startUp.assemblies.assembly slot with
      | none => spawnInAssemblies slots engine
      | some pASSM =>
          if engine.m_flags slot &&& StaticConstructorsExecuted = 0 &&
              engine.fDepedenciesRun pASSM.m_pCrossReference_AssemblyRef then
            let (spawned, engine) :=
              engine.SpawnStaticConstructorHelper startUp pASSM slot
                ⟨setIndex pASSM.m_idx 0⟩
            if spawned then engine else spawnInAssemblies slots engine
          else
            spawnInAssemblies slots engine

/-- `SpawnStaticConstructor`: the constructor behind the last one in its
assembly, or the first one of an assembly whose references have run. -/
def SpawnStaticConstructor : CLR_RT_ExecutionEngine :=
  let (ensured, engine) := engine.EnsureSystemThread startUp
  if ensured then
    match engine.m_cctorThread.bind CctorThread.m_dlg with
    | none => spawnInAssemblies startUp startUp.assemblies.slots engine
    | some idx =>
        match startUp.assemblies.assembly (idx.Assembly - 1) with
        | none => engine
        | some m_assm =>
            let (spawned, engine) :=
              engine.SpawnStaticConstructorHelper startUp m_assm
                (idx.Assembly - 1) ⟨idx.m_data + 1⟩
            if spawned then engine
            else spawnInAssemblies startUp startUp.assemblies.slots engine
  else
    engine

/-- The running constructor ends: its thread is passivated, and the termination
callback looks for the next constructor. -/
def constructorEnds : Option CLR_RT_ExecutionEngine := do
  let thread ← engine.m_cctorThread
  let constructor ← thread.frame
  let engine := { engine with
    m_cctorThread := some { thread with frame := none }
    history := engine.history ++ [Event.ended constructor] }
  some (engine.Passivate fun engine => engine.SpawnStaticConstructor startUp)

end CLR_RT_ExecutionEngine

/-! ## Runs -/

/-- The engine before the start-up. -/
def beforeStartUp (startUp : StartUp) : CLR_RT_ExecutionEngine where
  m_flags := startUp.flags
  m_cctorThread := none
  attempts := 0
  history := []
  destroyed := false

/-- The states of a start-up: after the first call, and after the end of each
constructor. -/
def Reached (startUp : StartUp) : CLR_RT_ExecutionEngine → Prop :=
  Reachable
    (fun engine =>
      engine = (beforeStartUp startUp).SpawnStaticConstructor startUp)
    (fun engine later => engine.constructorEnds startUp = some later)

end StaticConstructors

end NanoClr
