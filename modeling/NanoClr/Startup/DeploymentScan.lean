import NanoClr.Library.Loop
import NanoClr.Startup.AssemblyRecord

/-!
# The scan of the deployment range

The assemblies of the deployment range lie behind each other.  The scan reads a
header, steps back, reads as many bytes as the header claims, and goes on behind
them; behind a header that is not good it goes on right away.
-/

namespace NanoClr

namespace Startup

/-- The range: its bytes from the first on, with what lies behind it in memory,
and whether it can be read in place, because it is XIP or memory mapped. -/
structure DeploymentRange where
  content : Bytes
  length : Nat
  isXIP : Bool
  lengthFits : length < 2 ^ 32

/-- What the scan asks of the platform: memory for a header and for the assembly
at an index, and the driver's answer to a read at an index. -/
structure Platform where
  mallocHeader : Bool
  malloc : Nat → Bool
  driverRead : Nat → Nat → Bool

/-! ## The stream -/

/-- What an offset counts from. -/
inductive SeekOrigin where
  | begin
  | current
  | last

/-- `BlockStorageStream_Seek`: the new index, where the old one stays when there
is none. -/
def BlockStorageStream_Seek (range : DeploymentRange) (currentIndex : Nat)
    (offset : Nat) (origin : SeekOrigin) : Option Nat :=
  let seekIndex :=
    match origin with
    | .begin => 0
    | .current => currentIndex
    | .last => range.length
  let seekIndex := toInt32 (seekIndex + offset)
  if toInt32 range.length ≤ seekIndex then none
  else if seekIndex < 0 then none
  else some seekIndex.toNat

/-- A read on its way: the index, how many bytes are left, and where the bytes
are that were read in place. -/
structure ReadState where
  currentIndex : Nat
  remaining : Nat
  buffer : Option Nat

/-- One round of `BlockStorageStream_Read`. -/
def readRound (range : DeploymentRange) (platform : Platform)
    (state : ReadState) : LoopStep ReadState (Option ReadState) :=
  if state.remaining = 0 then .done (some state)
  else
    let readLen :=
      if range.length < add32 state.currentIndex state.remaining then
        sub32 range.length state.currentIndex
      else state.remaining
    let later : ReadState :=
      { currentIndex := add32 state.currentIndex readLen
        remaining := sub32 state.remaining readLen
        buffer := state.buffer }
    if range.isXIP then
      .next { later with buffer := some state.currentIndex }
    else if platform.driverRead state.currentIndex readLen then .next later
    else .done none

/-- `BlockStorageStream_Read`: nothing when the rounds do not suffice, and
`some none` when it reports a failure. -/
def BlockStorageStream_Read (range : DeploymentRange) (platform : Platform)
    (rounds currentIndex length : Nat) : Option (Option ReadState) :=
  loop (readRound range platform) rounds
    { currentIndex := currentIndex, remaining := length, buffer := none }

/-! ## The scan -/

/-- The scan on its way: the index, the pointer to the assembly that was read in
place last, the reads that succeeded, and the headers that `LoadAssembly` was
called for. -/
structure ScanState where
  currentIndex : Nat
  assembliesBuffer : Option Nat
  reads : List (Nat × Nat)
  loads : List Nat

/-- How the scan ends.  Nothing can be said of an end that reads outside of its
buffers. -/
inductive ScanEnd where
  | finished
  | outOfMemory
  | outside
  deriving DecidableEq

/-- The index after a read, with the read itself. -/
def ScanState.read (state : ScanState) (index length : Nat)
    (result : ReadState) : ScanState :=
  { state with
    currentIndex := result.currentIndex
    reads := state.reads ++ [(index, length)] }

/-- A buffer of this size holds what the checks of an assembly read. -/
def bufferHolds (bytes : Bytes) (header size : Nat) : Bool :=
  headerInBytes ≤ size ∧
    (goodHeader bytes header = true →
      headerInBytes + (toInt32 (bodyInBytes bytes header)).toNat ≤ size)

/-- The pointer that is checked after an assembly was read, unless the check
reads outside: in place it is what was read last, otherwise the bytes were
copied to a buffer of this size. -/
def assemblyPointer (range : DeploymentRange) (state : ScanState)
    (start size : Nat) : Option Nat :=
  if range.isXIP then state.assembliesBuffer
  else if bufferHolds range.content start size then some start
  else none

section Rounds

variable
  (range : DeploymentRange)
  (platform : Platform)
  (read : Nat → Nat → Option (Option ReadState))

/-- The second half of a round, behind a good header. -/
def readAssembly (header : Nat) (state : ScanState) :
    LoopStep ScanState (Option (ScanEnd × ScanState)) :=
  let size := roundedSize range.content header
  let start :=
    (BlockStorageStream_Seek range state.currentIndex (2 ^ 32 - headerInBytes)
      .current).getD state.currentIndex
  match read start size with
  | none => .done none
  | some none => .done (some (.finished, state))
  | some (some result) =>
      let state :=
        { state.read start size result with
          assembliesBuffer := result.buffer.or state.assembliesBuffer }
      match assemblyPointer range state start size with
      | none => .done (some (.outside, state))
      | some assembly =>
          -- `LoadAssembly` may fail, and the scan goes on all the same.
          if goodAssembly range.content assembly then
            .next { state with loads := state.loads ++ [assembly] }
          else .next state

/-- One round of the scan. -/
def scanRound (state : ScanState) :
    LoopStep ScanState (Option (ScanEnd × ScanState)) :=
  if ¬ state.currentIndex < range.length then .done (some (.finished, state))
  else if range.length - state.currentIndex < headerInBytes then
    .done (some (.finished, state))
  else
    match read state.currentIndex headerInBytes with
    | none => .done none
    | some none => .done (some (.finished, state))
    | some (some result) =>
        let header := state.currentIndex
        let state := state.read header headerInBytes result
        if ¬ goodHeader range.content header then .next state
        else if ¬ range.isXIP ∧ ¬ platform.malloc header then
          .done (some (.outOfMemory, state))
        else readAssembly range read header state

end Rounds

/-- The state before the first header. -/
def ScanState.start : ScanState where
  currentIndex := 0
  assembliesBuffer := none
  reads := []
  loads := []

/-- `ContiguousBlockAssemblies`, with a bound on the rounds of each of its
loops. -/
def contiguousBlockAssemblies (range : DeploymentRange) (platform : Platform)
    (rounds : Nat) : Option (ScanEnd × ScanState) :=
  if ¬ range.isXIP ∧ ¬ platform.mallocHeader then
    some (.outOfMemory, .start)
  else
    let read := BlockStorageStream_Read range platform rounds
    (loop (scanRound range platform read) rounds .start).join

end Startup

end NanoClr
