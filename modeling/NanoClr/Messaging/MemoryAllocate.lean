import NanoClr.EventCache.CacheCalls

/-!
# Allocating memory for a packet

`CLR_RT_Memory::Allocate` in both of its states: before the heap is laid out,
when it cuts pieces off the front of the heap, and afterwards, when it asks the
event cache for a node.  What a block holds is counted in bytes from the
address that is returned.
-/

namespace NanoClr

namespace Messaging

open HeapBlock

/-! ## The event cache as an allocator -/

/-- The bytes in front of the data of a binary blob. -/
def sizeofBinaryBlob : UInt32 := 16

/-- A node of the event cache: its address and its size in heap blocks. -/
structure EventNode where
  address : Nat
  blocks : Nat

/-- The event cache as `Extract_Node` and `Append_Node` see it.  A node that is
extracted has at least the blocks that were asked for, and the size of a heap
block is a half word. -/
structure EventHeap (σ : Type) where
  Extract_Node : σ → UInt32 → Option EventNode × σ
  Append_Node : σ → Nat → σ
  large : ∀ cache blocks node, (Extract_Node cache blocks).1 = some node →
    blocks.toNat ≤ node.blocks
  bounded : ∀ cache blocks node, (Extract_Node cache blocks).1 = some node →
    node.blocks < 2 ^ 16

/-- What the event cache hands out is such a node. -/
theorem extracts_large_bounded
    {state later : EventCache.CacheState}
    {extraction : EventCache.Extraction}
    {block : Nat}
    (extracts : EventCache.Extracts state later extraction block) :
    extraction.blocks ≤ HeapBlock.dataSize later.cache.memory block ∧
      HeapBlock.dataSize later.cache.memory block < 2 ^ 16 :=
  ⟨extracts.large, HeapBlock.dataSize_lt _ _⟩

/-! ## Blocks -/

/-- An allocated block: its address and the bytes that belong to it. -/
structure Block where
  address : Nat
  capacity : Nat

/-- The heap blocks a binary blob of this length asks for. -/
def blobBlocks (length : UInt32) : UInt32 :=
  CONVERTFROMSIZETOHEAPBLOCKS (sizeofBinaryBlob + length)

/-- The data of a node that is used as a binary blob. -/
def EventNode.blob (node : EventNode) : Block where
  address := node.address + sizeofBinaryBlob.toNat
  capacity := sizeofHeapBlock.toNat * node.blocks - sizeofBinaryBlob.toNat

/-- The memory of the runtime: the heap of the device, the size the runtime
has laid out of it, how much was handed out before, and the event cache. -/
structure CLR_RT_Memory (σ : Type) where
  heapStart : Nat
  heapSize : UInt32
  s_CLR_RT_Heap_m_size : UInt32
  s_PreHeapInitIndex : UInt32
  g_CLR_RT_EventCache : σ

variable {σ : Type} (heap : EventHeap σ) (memory : CLR_RT_Memory σ)

/-- Cuts a piece off the front of the heap. -/
def CLR_RT_Memory.preHeapBlock (len : UInt32) : Block where
  address := memory.heapStart + memory.s_PreHeapInitIndex.toNat
  capacity :=
    min len.toNat
      (memory.heapSize.toNat - memory.s_PreHeapInitIndex.toNat)

/-- `CLR_RT_Memory::Allocate`: from the memory in front of the heap until the
heap is laid out, and from the event cache then. -/
def CLR_RT_Memory.Allocate (len : UInt32) :
    Option Block × CLR_RT_Memory σ :=
  if memory.s_CLR_RT_Heap_m_size = 0 then
    if memory.heapSize < len then
      (none, memory)
    else
      (some (memory.preHeapBlock len),
        { memory with
          s_PreHeapInitIndex := memory.s_PreHeapInitIndex + len })
  else
    let (obj, cache) :=
      heap.Extract_Node memory.g_CLR_RT_EventCache (blobBlocks len)
    (obj.map EventNode.blob, { memory with g_CLR_RT_EventCache := cache })

/-- Gives a block back; before the heap is laid out nothing is given back. -/
def CLR_RT_Memory.Release (address : Nat) : CLR_RT_Memory σ :=
  if memory.s_CLR_RT_Heap_m_size = 0 then
    memory
  else
    { memory with
      g_CLR_RT_EventCache :=
        heap.Append_Node memory.g_CLR_RT_EventCache
          (address - sizeofBinaryBlob.toNat) }

/-! ## What an allocation holds -/

/-- An allocation of this length is served. -/
def CLR_RT_Memory.Grants (len : UInt32) : Prop :=
  if memory.s_CLR_RT_Heap_m_size = 0 then
    len ≤ memory.heapSize
  else
    ((heap.Extract_Node memory.g_CLR_RT_EventCache
      (blobBlocks len)).1).isSome

/-- The lengths that are counted on the way to an allocation of so many bytes
and some to spare stay below the word size, and before the heap is laid out
the bytes lie in it. -/
def CLR_RT_Memory.Holds (bytes spare : Nat) : Prop :=
  if memory.s_CLR_RT_Heap_m_size = 0 then
    bytes + spare < 2 ^ 32 ∧
      memory.s_PreHeapInitIndex.toNat + bytes ≤ memory.heapSize.toNat
  else
    bytes + spare + 27 < 2 ^ 32

variable {heap memory}

theorem CLR_RT_Memory.allocate_none
    {len : UInt32}
    (refused : ¬ memory.Grants heap len) :
    (memory.Allocate heap len).1 = none := by
  unfold Grants at refused
  unfold Allocate
  split at refused
  case isTrue notLaidOut =>
    rw [if_pos notLaidOut, if_pos (UInt32.not_le.mp refused)]
  case isFalse laidOut =>
    rw [if_neg laidOut]
    simpa using refused

theorem CLR_RT_Memory.allocate_some
    {len : UInt32}
    (granted : memory.Grants heap len) :
    ∃ block, (memory.Allocate heap len).1 = some block := by
  unfold Grants at granted
  unfold Allocate
  split at granted
  case isTrue notLaidOut =>
    rw [if_pos notLaidOut, if_neg (UInt32.not_lt.mpr granted)]
    exact ⟨_, rfl⟩
  case isFalse laidOut =>
    rw [if_neg laidOut]
    obtain ⟨node, extracted⟩ := Option.isSome_iff_exists.mp granted
    exact ⟨node.blob, by simp [extracted]⟩

/-- The heap blocks that are asked for where no sum wraps around. -/
theorem toNat_blobBlocks
    {length : UInt32}
    (fits : length.toNat + 27 < 2 ^ 32) :
    (blobBlocks length).toNat = (length.toNat + 27) / 12 := by
  simp only [blobBlocks, CONVERTFROMSIZETOHEAPBLOCKS, sizeofHeapBlock,
    sizeofBinaryBlob, UInt32.toNat_div, UInt32.toNat_add, UInt32.reduceSub,
    UInt32.reduceToNat]
  omega

/-- A block holds the bytes it was allocated for exactly where no length
wrapped around and, before the heap is laid out, the bytes lie in it. -/
theorem CLR_RT_Memory.allocate_holds
    {bytes spare : Nat}
    {len : UInt32}
    {block : Block}
    (positive : 0 < bytes)
    (bytesFit : bytes < 2 ^ 32 + 2 ^ 31)
    (few : spare < 2 ^ 20)
    (wraps : len.toNat = (bytes + spare) % 2 ^ 32)
    (allocated : (memory.Allocate heap len).1 = some block) :
    bytes ≤ block.capacity ↔ memory.Holds bytes spare := by
  unfold Allocate at allocated
  unfold Holds
  split at allocated
  case isTrue notLaidOut =>
    rw [if_pos notLaidOut]
    split at allocated
    · cases allocated
    · cases allocated
      have capacity : (memory.preHeapBlock len).capacity = min len.toNat
          (memory.heapSize.toNat - memory.s_PreHeapInitIndex.toNat) := rfl
      omega
  case isFalse laidOut =>
    rw [if_neg laidOut]
    obtain ⟨node, extracted, rfl⟩ := Option.map_eq_some_iff.mp allocated
    have large := heap.large _ _ _ extracted
    have bounded := heap.bounded _ _ _ extracted
    have capacity : node.blob.capacity = 12 * node.blocks - 16 := rfl
    constructor
    · intro inside
      omega
    · intro noWrap
      have blocks : (blobBlocks len).toNat = (len.toNat + 27) / 12 :=
        toNat_blobBlocks (by omega)
      omega

end Messaging

end NanoClr
