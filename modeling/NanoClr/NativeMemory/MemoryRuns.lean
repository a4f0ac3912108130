import NanoClr.Library.TransitionSystem
import NanoClr.NativeMemory.Allocator

/-!
# Native code at work on its memory

The blocks that native code has in its hands over a run of calls, before and
after the heap is laid out.
-/

namespace NanoClr

namespace NativeMemory

open HeapBlock Messaging

/-! ## Runs -/

/-- Where a block comes from: the front of the heap before it is laid out, its
end, or the event cache. -/
inductive BlockSource where
  | preHeap
  | system
  | blob
deriving DecidableEq

/-- A block in use: the bytes that belong to it, and how many were asked
for. -/
structure LiveBlock where
  block : Block
  length : Nat
  source : BlockSource

/-- The memory, whether the heap has been laid out in it, and the blocks in
use. -/
structure Use (σ : Type) where
  memory : CLR_RT_Memory σ
  laidOut : Bool
  live : List LiveBlock

/-- The calls of native code, and a store to a block of its own. -/
inductive MemoryCall where
  | reset
  | allocateHeaps
  | subtractFromSystem (len : UInt32)
  | allocate (len : UInt32)
  | release (ptr : Nat)
  | reAllocate (ptr : Nat) (len : UInt32)
  | store (address : Nat) (value : UInt8)

namespace Use

variable {σ : Type} (heap : NodeHeap σ) (location : HeapLocation)
  (use : Use σ)

/-- The block that starts at an address. -/
def blockAt (ptr : Nat) : Option LiveBlock :=
  use.live.find? fun entry => decide (entry.block.address = ptr)

/-- The blocks without the one that starts at an address. -/
def without (ptr : Nat) : List LiveBlock :=
  use.live.eraseP fun entry => decide (entry.block.address = ptr)

/-- The block that `Allocate` has returned. -/
def allocated
    (memory : CLR_RT_Memory σ)
    (p : Nat)
    (len : UInt32) : LiveBlock :=
  if use.memory.m_size = 0 then
    ⟨⟨p, len.toNat⟩, len.toNat, .preHeap⟩
  else
    ⟨⟨p, sizeofHeapBlock.toNat *
          heap.DataSize memory.g_CLR_RT_EventCache (GetBlob p) -
        sizeofBinaryBlob.toNat⟩, len.toNat, .blob⟩

/-- What a call leads to; native code gives back or moves only what it was
given, and stores only there. -/
def next : MemoryCall → Option (Use σ)
  | .reset =>
      some { use with memory := use.memory.Reset location, laidOut := false }
  | .allocateHeaps =>
      some { use with memory := use.memory.AllocateHeaps heap, laidOut := true }
  | .subtractFromSystem len =>
      let (p, memory) := use.memory.SubtractFromSystem len
      if p = 0 then
        some { use with memory }
      else
        some { use with
          memory
          live := ⟨⟨p, (roundToMultiple len).toNat⟩, len.toNat, .system⟩ ::
            use.live }
  | .allocate len =>
      let (p, memory) := use.memory.Allocate heap location len
      if p = 0 then
        some { use with memory }
      else
        some { use with
          memory
          live := use.allocated heap memory p len :: use.live }
  | .release ptr =>
      if ptr ≠ 0 ∧ (use.blockAt ptr).isNone then
        none
      else
        (use.memory.Release heap ptr).map fun memory =>
          { use with memory, live := use.without ptr }
  | .reAllocate ptr len =>
      if ptr ≠ 0 ∧ (use.blockAt ptr).isNone then
        none
      else
        (use.memory.ReAllocate heap location ptr len).map fun (p, memory) =>
          if p = 0 then
            { use with memory }
          else
            { use with
              memory
              live := use.allocated heap memory p len :: use.without ptr }
  | .store address value =>
      if use.live.any fun entry => decide (Holds entry.block address) then
        some { use with
          memory.bytes := Function.update use.memory.bytes address value }
      else
        none

/-- Each block in use is as long as was asked for, lies in the heap of the
device, and shares no byte with another one. -/
structure Sound : Prop where
  long : ∀ entry ∈ use.live, entry.length ≤ entry.block.capacity
  inside : ∀ entry ∈ use.live,
    location.heapStart ≤ entry.block.address ∧
      entry.block.address + entry.block.capacity ≤
        location.heapStart + location.heapSize.toNat
  apart : use.live.Pairwise fun entry other => Apart entry.block other.block

/-- What `ReAllocate` promises of the block it was given. -/
structure Moves (ptr : Nat) (len : UInt32) (later : Use σ) (old : LiveBlock) :
    Prop where
  reads : (use.memory.Allocate heap location len).1 ≠ 0 →
    (use.memory.Allocate heap location len).2.copiedLength heap ptr len ≤
      old.block.capacity
  moved : (use.memory.Allocate heap location len).1 ≠ 0 →
    ∃ new, later.live = new :: use.without ptr ∧ new.length = len.toNat ∧
      ∀ index < min old.length len.toNat,
        later.memory.bytes (new.block.address + index) =
          use.memory.bytes (ptr + index)
  stays : (use.memory.Allocate heap location len).1 = 0 →
    later.live = use.live ∧ ∀ address, Holds old.block address →
      later.memory.bytes address = use.memory.bytes address

/-- An allocation of so many bytes is in order: before the heap is known the
bytes that were handed out and these lie in it, and none were taken off its
end; afterwards the heap has been laid out, and the length of the blob does not
wrap around. -/
def MayAllocate (len : UInt32) : Prop :=
  if use.memory.m_size = 0 then
    use.memory.s_PreHeapInitIndex.toNat + len.toNat ≤
        location.heapSize.toNat ∧
      ∀ entry ∈ use.live, entry.source ≠ .system
  else
    use.laidOut = true ∧ len.toNat + 27 < 2 ^ 32

/-- The condition on the calls. -/
def Proper : MemoryCall → Prop
  | .reset => use.live = []
  | .allocateHeaps => use.memory.m_size ≠ 0 ∧ use.laidOut = false
  | .subtractFromSystem len => use.laidOut = false ∧ len.toNat ≤ 2 ^ 32 - 4
  | .allocate len => use.MayAllocate location len
  | .release ptr => use.memory.m_size ≠ 0 →
      ∀ entry ∈ use.blockAt ptr, entry.source = .blob
  | .reAllocate ptr len => use.MayAllocate location len ∧
      (ptr ≠ 0 → use.memory.m_size ≠ 0 ∧
        ∀ entry ∈ use.blockAt ptr,
          entry.source = .blob ∧ len.toNat ≤ entry.block.capacity)
  | .store _ _ => True

instance (len : UInt32) : Decidable (use.MayAllocate location len) :=
  inferInstanceAs (Decidable (if use.memory.m_size = 0 then _ ∧ _ else _ ∧ _))

instance : (call : MemoryCall) → Decidable (use.Proper location call)
  | .reset => inferInstanceAs (Decidable (_ = []))
  | .allocateHeaps => inferInstanceAs (Decidable (_ ∧ _))
  | .subtractFromSystem _ => inferInstanceAs (Decidable (_ ∧ _))
  | .allocate len => inferInstanceAs (Decidable (use.MayAllocate location len))
  | .release _ => inferInstanceAs (Decidable (_ → ∀ _ ∈ _, _))
  | .reAllocate _ _ => inferInstanceAs (Decidable (_ ∧ (_ → _ ∧ ∀ _ ∈ _, _)))
  | .store _ _ => inferInstanceAs (Decidable True)

end Use

/-- Nothing has been handed out, and the heap is not known. -/
structure MemoryStart {σ : Type} (use : Use σ) : Prop where
  m_location : use.memory.m_location = 0
  m_size : use.memory.m_size = 0
  s_PreHeapInitIndex : use.memory.s_PreHeapInitIndex = 0
  laidOut : use.laidOut = false
  live : use.live = []

/-- One call. -/
def MemoryStep {σ : Type} (heap : NodeHeap σ) (location : HeapLocation)
    (use : Use σ) (call : MemoryCall) (later : Use σ) : Prop :=
  use.next heap location call = some later

/-! ## The invariant -/

/-- Where the blocks of each source lie. -/
structure MemoryInvariant {σ : Type} (heap : NodeHeap σ)
    (location : HeapLocation) (use : Use σ) : Prop where
  sound : use.Sound location
  notNull : ∀ entry ∈ use.live, entry.block.address ≠ 0
  m_location : use.memory.m_location = 0 ∨
    use.memory.m_location = location.heapStart
  known : use.memory.m_size ≠ 0 → use.memory.m_location ≠ 0
  m_size : use.memory.m_size ≤ location.heapSize
  preHeap : ∀ entry ∈ use.live, entry.source = .preHeap →
    use.memory.m_size = 0 ∧
      entry.block.address + entry.block.capacity ≤
        location.heapStart + use.memory.s_PreHeapInitIndex.toNat
  system : ∀ entry ∈ use.live, entry.source = .system →
    location.heapStart + use.memory.m_size.toNat ≤ entry.block.address
  blob : ∀ entry ∈ use.live, entry.source = .blob →
    use.laidOut = true ∧ 0 < entry.block.capacity ∧
      ∃ node ∈ heap.handedOut use.memory.g_CLR_RT_EventCache,
        entry.block = node.blob
  laidOut : use.laidOut = true → use.memory.m_size ≠ 0 ∧
    heap.region use.memory.g_CLR_RT_EventCache =
      ⟨location.heapStart, use.memory.m_size.toNat⟩

section Invariant

variable {σ : Type} {heap : NodeHeap σ} {location : HeapLocation}
  {use : Use σ}

theorem MemoryStart.invariant (start : MemoryStart use) :
    MemoryInvariant heap location use where
  sound := by
    refine ⟨?_, ?_, ?_⟩
    all_goals simp [start.live]
  notNull := by simp [start.live]
  m_location := .inl start.m_location
  known := by simp [start.m_size]
  m_size := by simp [start.m_size]
  preHeap := by simp [start.live]
  system := by simp [start.live]
  blob := by simp [start.live]
  laidOut := by simp [start.laidOut]

/-- Apart blocks of which one has bytes do not start at one address. -/
theorem Apart.address_ne
    {block other : Block}
    (apart : Apart block other)
    (some_ : 0 < block.capacity)
    (otherSome : 0 < other.capacity) : other.address ≠ block.address := by
  intro same
  exact apart block.address ⟨Nat.le_refl _, by omega⟩ ⟨by omega, by omega⟩

/-- The data of a node are bytes of the node. -/
theorem holds_span
    {node : EventNode}
    {address : Nat}
    (holds : Holds node.blob address) : Holds (span node) address := by
  simp only [Holds, span, EventNode.blob, sizeofBinaryBlob, sizeofHeapBlock,
    UInt32.reduceToNat] at holds ⊢
  omega

/-- Blocks that are not in use any more leave the others as they are. -/
theorem MemoryInvariant.sublist
    (invariant : MemoryInvariant heap location use)
    {live : List LiveBlock}
    (fewer : live.Sublist use.live) :
    MemoryInvariant heap location { use with live } where
  sound := by
    refine ⟨?_, ?_, ?_⟩
    · exact fun entry member => invariant.sound.long entry (fewer.mem member)
    · exact fun entry member =>
        invariant.sound.inside entry (fewer.mem member)
    · exact invariant.sound.apart.sublist fewer
  notNull := fun entry member => invariant.notNull entry (fewer.mem member)
  m_location := invariant.m_location
  known := invariant.known
  m_size := invariant.m_size
  preHeap := fun entry member => invariant.preHeap entry (fewer.mem member)
  system := fun entry member => invariant.system entry (fewer.mem member)
  blob := fun entry member => invariant.blob entry (fewer.mem member)
  laidOut := invariant.laidOut

/-- The invariant says nothing about the bytes. -/
theorem MemoryInvariant.withBytes
    (invariant : MemoryInvariant heap location use)
    (bytes : Bytes) :
    MemoryInvariant heap location
      { use with memory := { use.memory with bytes } } :=
  { invariant with
    sound := ⟨invariant.sound.long, invariant.sound.inside,
      invariant.sound.apart⟩ }

end Invariant

end NativeMemory

end NanoClr
