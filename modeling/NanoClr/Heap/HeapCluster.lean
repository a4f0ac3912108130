import NanoClr.Heap.HeapBlock
import NanoClr.Library.LinkedList

/-!
# Heap clusters

A cluster is a header followed by its payload of heap blocks.  The header is a
node (three words), the free list (`m_first`, `m_null` and `m_last`) and the
two payload bounds.  The sentinels of a list overlap: the head node is placed
so that its forward link is `m_first`, the tail node so that its backward link
is `m_last`, and `m_null` ends the list in both directions.
-/

namespace NanoClr

open HeapBlock

/-! ## Lists -/

/-- `Head()`: the sentinel before the first node. -/
def head (list : Nat) : Nat := list - 1

/-- `Tail()`: the sentinel behind the last node. -/
def tail (list : Nat) : Nat := list

/-- `FirstNode`: what the head of a list points to. -/
def firstNode (memory : Memory) (list : Nat) : Nat := memory list

/-- `LastNode`: what the tail of a list points to. -/
def lastNode (memory : Memory) (list : Nat) : Nat := memory (list + 2)

/-- `DblLinkedList_Initialize`. -/
def dblLinkedListInitialize (memory : Memory) (list : Nat) : Memory :=
  let memory := Function.update memory list (tail list)
  let memory := Function.update memory (list + 1) 0
  Function.update memory (list + 2) (head list)

namespace HeapCluster

/-- Bytes of the cluster header and of a heap block. -/
def headerBytes : Nat := 32

/-- The bytes of a heap block. -/
def heapBlockBytes : Nat := 12

/-- The largest size that the execution engine gives a cluster. -/
def c_HeapClusterSize : Nat := heapBlockBytes * HB_MaxSize

/-! ## Header fields -/

/-- The list `m_freeList` of a cluster. -/
def freeList (cluster : Nat) : Nat := cluster + 3

/-- `m_payloadStart` of a cluster. -/
def payloadStart (memory : Memory) (cluster : Nat) : Nat :=
  memory (cluster + 6)

/-- `m_payloadEnd` of a cluster. -/
def payloadEnd (memory : Memory) (cluster : Nat) : Nat :=
  memory (cluster + 7)

/-- Every loop over the payload advances by at least one word a round. -/
def rounds (memory : Memory) (cluster : Nat) : Nat :=
  payloadEnd memory cluster - payloadStart memory cluster + 2

/-! ## `ExtractBlocks` -/

/-- One round of the search from the front of the free list. -/
def searchForward (memory : Memory) (length : Nat) : Nat → LoopStep Nat Nat :=
  searchNode (next memory) (fun block => length ≤ dataSize memory block)
    fun _ => 0

/-- One round of the search from the back of the free list. -/
def searchBackward (memory : Memory) (length : Nat) : Nat → LoopStep Nat Nat :=
  searchNode (prev memory) (fun block => length ≤ dataSize memory block)
    fun _ => 0

/-- Take a block of the given length out of a free block: events take its end,
objects its beginning, and the rest stays in the free list. -/
def takeBlock (memory : Memory) (flags length block : Nat) : Memory × Nat :=
  let after := next memory block
  let before := prev memory block
  let available := dataSize memory block - length
  if available ≠ 0 then
    if flags &&& HB_Event ≠ 0 then
      (setDataId memory block
        (rawId DataType.freeBlock.code HB_Pinned available),
        block + 3 * available)
    else
      let rest := block + 3 * length
      let memory := setDataId memory rest
        (rawId DataType.freeBlock.code HB_Pinned available)
      let memory := setNext memory rest after
      let memory := setPrev memory rest before
      let memory := setNext memory before rest
      (setPrev memory after rest, block)
  else
    let memory := setNext memory before after
    (setPrev memory after before, block)

/-- Give a block that was taken out of the free list its identity. -/
def nameBlock
    (memory : Memory) (dataTypeCode flags length block : Nat) : Memory :=
  let memory := setDataId memory block (rawId dataTypeCode flags length)
  if flags &&& HB_InitializeToZero ≠ 0 then initializeToZero memory block
  else memory

/-- The search of `ExtractBlocks`: zero when no free block is long enough. -/
def findBlock (memory : Memory) (cluster flags length : Nat) : Option Nat :=
  if flags &&& HB_Event ≠ 0 then
    loop (searchBackward memory length) (rounds memory cluster)
      (lastNode memory (freeList cluster))
  else
    loop (searchForward memory length) (rounds memory cluster)
      (firstNode memory (freeList cluster))

/-- `ExtractBlocks`: the memory afterwards and the block, or zero when no free
block is long enough. -/
def extractBlocks
    (memory : Memory) (cluster dataTypeCode flags length : Nat) :
    Option (Memory × Nat) := do
  let block ← findBlock memory cluster flags length
  if block ≠ 0 then
    let (memory, block) := takeBlock memory flags length block
    some (nameBlock memory dataTypeCode flags length block, block)
  else some (memory, 0)

/-! ## `RecoverFromGC` -/

/-- One round over a run of dead blocks, with the length passed so far. -/
def deadRun (memory : Memory) (stop : Nat) :
    Nat × Nat → LoopStep (Nat × Nat) (Nat × Nat)
  | (block, lenTot) =>
      let block' := block + words memory block
      let lenTot := lenTot + dataSize memory block
      if block' < stop ∧ isAlive memory block' = false then
        .next (block', lenTot)
      else .done (block', lenTot)

/-- The state of the sweep: memory, the current block and the last block
linked to the free list. -/
structure Sweep where
  memory : Memory
  block : Nat
  last : Nat

/-- One round of the sweep over the payload. -/
def sweepBlock (bound stop : Nat) (state : Sweep) :
    LoopStep Sweep (Option Sweep) :=
  let memory := state.memory
  let block := state.block
  if block < stop then
    if isAlive memory block = false then
      match loop (deadRun memory stop) bound (block, 0) with
      | none => .done none
      | some (after, lenTot) =>
          let memory := setDataId memory block
            (rawId DataType.freeBlock.code HB_Pinned lenTot)
          let memory := setNext memory state.last block
          let memory := setPrev memory block state.last
          .next { memory, block := after, last := block }
    else
      let memory := if isEvent memory block then memory
        else markDead memory block
      .next { state with memory, block := block + words memory block }
  else .done (some state)

/-- `RecoverFromGC`: dead blocks are merged into free blocks and the free list
is rebuilt in address order. -/
def recoverFromGC (memory : Memory) (cluster : Nat) : Option Memory := do
  let list := freeList cluster
  let stop := payloadEnd memory cluster
  let bound := rounds memory cluster
  let opened := setPrev memory (head list) 0
  let swept ← (← loop (sweepBlock bound stop) bound
    { memory := opened, block := payloadStart memory cluster,
      last := head list })
  let memory := setNext swept.memory swept.last (tail list)
  let memory := setPrev memory (tail list) swept.last
  some (setNext memory (tail list) 0)

/-! ## `InsertInOrder` -/

/-- One round of the search for the first free block behind a node, which
ends at the tail of the list. -/
def searchPlace (memory : Memory) (node : Nat) : Nat → LoopStep Nat Nat :=
  searchNode (next memory) (fun block => node < block) fun last => last

/-- Try to coalesce with the following free block. -/
def coalesceFollowing (memory : Memory) (node size : Nat) : Memory × Nat :=
  let after := next memory node
  if next memory after ≠ 0 ∧ node + 3 * size = after then
    (unlink memory after, size + dataSize memory after)
  else (memory, size)

/-- Try to coalesce with the preceding free block, which then is the node. -/
def coalescePreceding (memory : Memory) (node size : Nat) :
    Memory × Nat × Nat :=
  let before := prev memory node
  if prev memory before ≠ 0 ∧ before + words memory before = node then
    (unlink memory node, before, size + dataSize memory before)
  else (memory, node, size)

/-- `InsertInOrder`: memory afterwards and the free block that now covers the
node. -/
def insertInOrder (memory : Memory) (cluster node size : Nat) :
    Option (Memory × Nat) := do
  let place ← loop (searchPlace memory node) (rounds memory cluster)
    (firstNode memory (freeList cluster))
  let memory := insertBeforeNode (clearData memory node) place node
  let (memory, size) := coalesceFollowing memory node size
  let (memory, node, size) := coalescePreceding memory node size
  some (setDataId memory node
    (rawId DataType.freeBlock.code HB_Pinned size), node)

/-! ## `HeapCluster_Initialize` -/

/-- Size of a weak reference in heap blocks, and its flags. -/
def weakReferenceSize : Nat := 4

/-- The flag of a weak reference that is kept over a start. -/
def WR_SurviveBoot : Nat := 0x00000001

/-- The flag of a weak reference that was kept. -/
def WR_Persisted : Nat := 0x20000000

/-- A weak reference that may be kept from before the reset. -/
def isSurvivingWeakReference (memory : Memory) (block : Nat) : Bool :=
  dataType memory block = some .weakClass ∧
    dataSize memory block = weakReferenceSize ∧
    memory (block + 10) ≠ 0 ∧ memory (block + 4) &&& WR_SurviveBoot ≠ 0

/-- The heap blocks of an array, from the element size and number in its
header; all lengths are words. -/
def arrayBlocks (memory : Memory) (block : Nat) : Nat :=
  let tot :=
    (20 + memory (block + 4) / 0x100 % 0x100 * memory (block + 3)) % 2 ^ 32
  (tot + 11) % 2 ^ 32 / 12

/-- An array of bytes that may be kept from before the reset. -/
def isSurvivingByteArray (memory : Memory) (stop block : Nat) : Bool :=
  dataType memory block = some .szArray ∧
    memory (block + 4) % 0x100 = DataType.u1.code ∧
    memory (block + 4) / 0x10000 % 0x100 = 0 ∧
    dataSize memory block = arrayBlocks memory block ∧
    block + words memory block ≤ stop

/-- `PrepareForRecovery` of a weak reference. -/
def salvageWeakReference (memory : Memory) (block : Nat) : Memory :=
  let memory := clearData memory block
  let memory := Function.update memory (block + 4)
    (memory (block + 4) &&& (0xFFFFFFFF ^^^ WR_Persisted))
  let memory := Function.update memory (block + 9) 0
  markAlive memory block

/-- The state of the initialization: memory, the current block and the size
of the free blocks that are laid out. -/
structure Layout where
  memory : Memory
  block : Nat
  blockSize : Nat

/-- One round of the scan that lays out the payload. -/
def layOutBlock (stop : Nat) (state : Layout) : LoopStep Layout Layout :=
  let memory := state.memory
  let block := state.block
  if block < stop then
    if isSurvivingWeakReference memory block then
      let memory := salvageWeakReference memory block
      .next { state with memory, block := block + words memory block }
    else if isSurvivingByteArray memory stop block then
      let memory := markAlive memory block
      .next { state with memory, block := block + words memory block }
    else
      let blockSize :=
        if stop < block + 3 * state.blockSize then (stop - block) / 3
        else state.blockSize
      let memory := setDataId memory block
        (rawId DataType.freeBlock.code 0 blockSize)
      .next { memory, block := block + 3 * blockSize, blockSize }
  else .done state

/-- Write the cluster header for a payload of the given number of blocks. -/
def writeHeader (memory : Memory) (cluster blocks : Nat) : Memory :=
  let memory := clearData memory cluster
  let memory := dblLinkedListInitialize memory (freeList cluster)
  let memory := Function.update memory (cluster + 6) (cluster + 8)
  Function.update memory (cluster + 7) (cluster + 8 + 3 * blocks)

/-- `HeapCluster_Initialize` with the size of the cluster in bytes.  The second
scan of the source starts behind the payload and has nothing to do. -/
def heapClusterInitialize (memory : Memory) (cluster size blockSize : Nat) :
    Option Memory := do
  let blocks := (size - headerBytes) / heapBlockBytes
  let memory := writeHeader memory cluster blocks
  let stop := payloadEnd memory cluster
  let layout ← loop (layOutBlock stop) (rounds memory cluster)
    { memory, block := payloadStart memory cluster, blockSize }
  recoverFromGC layout.memory cluster

end HeapCluster

end NanoClr
