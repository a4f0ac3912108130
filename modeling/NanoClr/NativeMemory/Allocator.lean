import NanoClr.Messaging.MemoryAllocate

/-!
# The allocator for native code

`CLR_RT_Memory` hands out pieces of the heap of the device before the runtime
has laid it out, takes pieces off its end, and afterwards asks the event cache
for binary blobs.  A null pointer is the address 0.
-/

namespace NanoClr

namespace NativeMemory

open HeapBlock Messaging

/-- The memory byte by byte. -/
abbrev Bytes := Nat → UInt8

/-- What `HeapLocation` tells: a part of the address space. -/
structure HeapLocation where
  heapStart : Nat
  heapSize : UInt32
  notNull : 0 < heapStart
  inside : heapStart + heapSize.toNat ≤ 2 ^ 32

/-- The address belongs to a block. -/
def Holds (block : Block) (address : Nat) : Prop :=
  block.address ≤ address ∧ address < block.address + block.capacity

instance (block : Block) (address : Nat) : Decidable (Holds block address) :=
  inferInstanceAs (Decidable (_ ∧ _))

/-- Two blocks share no address. -/
def Apart (block other : Block) : Prop :=
  ∀ address, Holds block address → ¬ Holds other address

/-- All bytes of a node, those of its descriptor in front. -/
def span (node : EventNode) : Block where
  address := node.address
  capacity := sizeofHeapBlock.toNat * node.blocks

/-! ## The event cache -/

/-- The event cache as the allocator sees it: the nodes in the hands of the
runtime lie in the heap that was laid out and share no bytes, and their data
are left alone. -/
structure NodeHeap (σ : Type) where
  layOut : Bytes → Nat → UInt32 → σ × Bytes
  Extract_Node : σ → Bytes → UInt32 → Option EventNode × σ × Bytes
  Append_Node : σ → Bytes → Nat → σ × Bytes
  DataSize : σ → Nat → Nat
  isBinaryBlob : σ → Nat → Bool
  handedOut : σ → List EventNode
  region : σ → Block
  layOut_region : ∀ bytes location size,
    region (layOut bytes location size).1 = ⟨location, size.toNat⟩
  extract_region : ∀ cache bytes blocks,
    region (Extract_Node cache bytes blocks).2.1 = region cache
  extract_keeps : ∀ cache bytes blocks, ∀ node ∈ handedOut cache,
    ∀ address, Holds (span node) address →
      (Extract_Node cache bytes blocks).2.2 address = bytes address
  extract_none : ∀ cache bytes blocks,
    (Extract_Node cache bytes blocks).1 = none →
      handedOut (Extract_Node cache bytes blocks).2.1 = handedOut cache
  extract_some : ∀ cache bytes blocks node,
    (Extract_Node cache bytes blocks).1 = some node →
      handedOut (Extract_Node cache bytes blocks).2.1 =
          node :: handedOut cache ∧
        blocks.toNat ≤ node.blocks ∧
        (∀ address, Holds (span node) address →
          Holds (region cache) address) ∧
        ∀ other ∈ handedOut cache, Apart (span node) (span other)
  append_region : ∀ cache bytes address,
    region (Append_Node cache bytes address).1 = region cache
  append_handedOut : ∀ cache bytes, ∀ node ∈ handedOut cache, ∀ other,
    other ∈ handedOut (Append_Node cache bytes node.address).1 ↔
      other ∈ handedOut cache ∧ other.address ≠ node.address
  append_keeps : ∀ cache bytes, ∀ node ∈ handedOut cache,
    ∀ other ∈ handedOut cache, other.address ≠ node.address →
      ∀ address, Holds (span other) address →
        (Append_Node cache bytes node.address).2 address = bytes address
  dataSize : ∀ cache, ∀ node ∈ handedOut cache,
    DataSize cache node.address = node.blocks
  binaryBlob : ∀ cache, ∀ node ∈ handedOut cache,
    isBinaryBlob cache node.address = true

/-! ## The calls -/

/-- `s_CLR_RT_Heap`, `s_PreHeapInitIndex`, the event cache and the bytes. -/
structure CLR_RT_Memory (σ : Type) where
  m_location : Nat
  m_size : UInt32
  s_PreHeapInitIndex : UInt32
  g_CLR_RT_EventCache : σ
  bytes : Bytes

/-- `ROUNDTOMULTIPLE(len, CLR_UINT32)`. -/
def roundToMultiple (len : UInt32) : UInt32 :=
  (len + 3) &&& ~~~3

theorem toNat_and_notThree (x : UInt32) :
    (x &&& ~~~(3 : UInt32)).toNat = x.toNat / 4 * 4 := by
  have mask : ∀ bit < 32,
      (~~~(3 : UInt32)).toNat.testBit bit = decide (2 ≤ bit) := by decide
  have shifted : x.toNat / 4 * 4 = x.toNat >>> 2 <<< 2 := by
    rw [Nat.shiftLeft_eq, Nat.shiftRight_eq_div_pow]
  rw [UInt32.toNat_and, shifted]
  apply Nat.eq_of_testBit_eq
  intro bit
  rw [Nat.testBit_and, Nat.testBit_shiftLeft, Nat.testBit_shiftRight]
  by_cases low : bit < 32
  · rw [mask bit low]
    by_cases behind : 2 ≤ bit
    · rw [Nat.add_sub_cancel' behind, Bool.and_comm]
    · simp [behind]
  · have high : 2 ^ 32 ≤ 2 ^ bit := Nat.pow_le_pow_right (by decide) (by omega)
    have noBit : x.toNat.testBit bit = false :=
      Nat.testBit_lt_two_pow (Nat.lt_of_lt_of_le x.toNat_lt high)
    rw [noBit, Nat.add_sub_cancel' (by omega), noBit]
    simp

/-- The next multiple of four, where the sum does not wrap around. -/
theorem le_roundToMultiple
    {len : UInt32}
    (fits : len.toNat ≤ 2 ^ 32 - 4) :
    len.toNat ≤ (roundToMultiple len).toNat := by
  rw [roundToMultiple, toNat_and_notThree, UInt32.toNat_add]
  simp only [UInt32.reduceToNat]
  omega

/-- `memcpy`. -/
def memcpy (bytes : Bytes) (target source count : Nat) : Bytes :=
  fun address =>
    if target ≤ address ∧ address < target + count then
      bytes (source + (address - target))
    else
      bytes address

/-- `GetBlob`: the descriptor in front of some data. -/
def GetBlob (data : Nat) : Nat := data - sizeofBinaryBlob.toNat

namespace CLR_RT_Memory

variable {σ : Type} (heap : NodeHeap σ) (location : HeapLocation)
  (memory : CLR_RT_Memory σ)

/-- `Reset`. -/
def Reset : CLR_RT_Memory σ :=
  { memory with
    m_location := location.heapStart
    m_size := location.heapSize }

/-- `AllocateHeaps`: the clusters of the heap and an empty event cache. -/
def AllocateHeaps : CLR_RT_Memory σ :=
  let (cache, bytes) :=
    heap.layOut memory.bytes memory.m_location memory.m_size
  { memory with g_CLR_RT_EventCache := cache, bytes }

/-- `SubtractFromSystem`. -/
def SubtractFromSystem (len : UInt32) : Nat × CLR_RT_Memory σ :=
  let len := roundToMultiple len
  if len ≤ memory.m_size then
    let m_size := memory.m_size - len
    (memory.m_location + m_size.toNat, { memory with m_size })
  else
    (0, memory)

/-- `Allocate`. -/
def Allocate (len : UInt32) : Nat × CLR_RT_Memory σ :=
  if memory.m_size = 0 then
    if location.heapSize < len then
      (0, memory)
    else
      ((location.heapStart + memory.s_PreHeapInitIndex.toNat) % 2 ^ 32,
        { memory with
          s_PreHeapInitIndex := memory.s_PreHeapInitIndex + len })
  else
    let (obj, cache, bytes) := heap.Extract_Node memory.g_CLR_RT_EventCache
      memory.bytes (blobBlocks len)
    let memory := { memory with g_CLR_RT_EventCache := cache, bytes }
    match obj with
    | some node => (node.blob.address, memory)
    | none => (0, memory)

/-- `Release`; nothing comes behind a pointer that is not one of a blob, where
the device stops. -/
def Release (ptr : Nat) : Option (CLR_RT_Memory σ) :=
  if memory.m_size = 0 then
    some memory
  else if ptr = 0 then
    some memory
  else if heap.isBinaryBlob memory.g_CLR_RT_EventCache (GetBlob ptr) then
    let (cache, bytes) := heap.Append_Node memory.g_CLR_RT_EventCache
      memory.bytes (GetBlob ptr)
    some { memory with g_CLR_RT_EventCache := cache, bytes }
  else
    none

/-- How many bytes `ReAllocate` copies. -/
def copiedLength (ptr : Nat) (len : UInt32) : Nat :=
  let prevLen := heap.DataSize memory.g_CLR_RT_EventCache (GetBlob ptr) *
    sizeofHeapBlock.toNat
  if prevLen < len.toNat then prevLen else len.toNat

/-- `ReAllocate`. -/
def ReAllocate (ptr : Nat) (len : UInt32) : Option (Nat × CLR_RT_Memory σ) :=
  let (p, memory) := memory.Allocate heap location len
  if p = 0 then
    some (0, memory)
  else if ptr = 0 then
    some (p, memory)
  else
    let bytes := memcpy memory.bytes p ptr (memory.copiedLength heap ptr len)
    ({ memory with bytes }.Release heap ptr).map fun memory => (p, memory)

end CLR_RT_Memory

end NativeMemory

end NanoClr
