import NanoClr.NativeMemory.MemoryRuns

/-!
# The calls keep the blocks apart

What each call of native code does to the blocks in use, where the call is in
order.
-/

namespace NanoClr

namespace NativeMemory

open HeapBlock Messaging

section Calls

variable {σ : Type} {heap : NodeHeap σ} {location : HeapLocation}
  {use : Use σ}

/-! ## Laying out the heap -/

theorem reset_invariant
    (invariant : MemoryInvariant heap location use)
    (unused : use.live = []) :
    MemoryInvariant heap location
      { use with memory := use.memory.Reset location, laidOut := false } where
  sound := ⟨invariant.sound.long, invariant.sound.inside,
    invariant.sound.apart⟩
  notNull := invariant.notNull
  m_location := .inr rfl
  known := fun _ => Nat.ne_of_gt location.notNull
  m_size := UInt32.le_refl _
  preHeap := by simp [unused]
  system := by simp [unused]
  blob := by simp [unused]
  laidOut := by simp

theorem allocateHeaps_invariant
    (invariant : MemoryInvariant heap location use)
    (some_ : use.memory.m_size ≠ 0)
    (notYet : use.laidOut = false) :
    MemoryInvariant heap location
      { use with
        memory := use.memory.AllocateHeaps heap
        laidOut := true } where
  sound := ⟨invariant.sound.long, invariant.sound.inside,
    invariant.sound.apart⟩
  notNull := invariant.notNull
  m_location := invariant.m_location
  known := invariant.known
  m_size := invariant.m_size
  preHeap := invariant.preHeap
  system := invariant.system
  blob := by
    intro entry member isBlob
    have laidOut := (invariant.blob entry member isBlob).1
    rw [notYet] at laidOut
    cases laidOut
  laidOut := by
    intro _
    refine ⟨some_, ?_⟩
    have location_ := invariant.m_location.resolve_left (invariant.known some_)
    rw [← location_]
    exact heap.layOut_region _ _ _

/-- A block that is apart from all blocks in use. -/
theorem Use.Sound.cons
    {memory : CLR_RT_Memory σ}
    {new : LiveBlock}
    (sound : use.Sound location)
    (long : new.length ≤ new.block.capacity)
    (inside : location.heapStart ≤ new.block.address ∧
      new.block.address + new.block.capacity ≤
        location.heapStart + location.heapSize.toNat)
    (apart : ∀ entry ∈ use.live, Apart new.block entry.block) :
    { use with memory, live := new :: use.live }.Sound location where
  long := List.forall_mem_cons.mpr ⟨long, sound.long⟩
  inside := List.forall_mem_cons.mpr ⟨inside, sound.inside⟩
  apart := List.pairwise_cons.mpr ⟨apart, sound.apart⟩

/-- A piece off the end of a heap that is not laid out. -/
theorem subtractFromSystem_invariant
    {later : Use σ}
    {len : UInt32}
    (invariant : MemoryInvariant heap location use)
    (notYet : use.laidOut = false)
    (fits : len.toNat ≤ 2 ^ 32 - 4)
    (step : use.next heap location (.subtractFromSystem len) = some later) :
    MemoryInvariant heap location later := by
  have long := le_roundToMultiple fits
  have noBlob : ∀ entry ∈ use.live, entry.source ≠ .blob := by
    intro entry member isBlob
    have laidOut := (invariant.blob entry member isBlob).1
    rw [notYet] at laidOut
    cases laidOut
  have sizeFits := UInt32.le_iff_toNat_le.mp invariant.m_size
  simp only [Use.next, CLR_RT_Memory.SubtractFromSystem] at step
  by_cases room : roundToMultiple len ≤ use.memory.m_size
  · have left : (use.memory.m_size - roundToMultiple len).toNat =
        use.memory.m_size.toNat - (roundToMultiple len).toNat :=
      UInt32.toNat_sub_of_le _ _ room
    have lengthFits := UInt32.le_iff_toNat_le.mp room
    have stillKnown : use.memory.m_size - roundToMultiple len ≠ 0 →
        use.memory.m_size ≠ 0 := by
      intro some_ none_
      apply some_
      rw [none_] at left lengthFits
      apply UInt32.toNat_inj.mp
      rw [none_, left]
      exact Nat.zero_sub _
    have smaller : use.memory.m_size - roundToMultiple len ≤
        location.heapSize := by
      rw [UInt32.le_iff_toNat_le, left]
      omega
    have preHeap : ∀ entry ∈ use.live, entry.source = .preHeap →
        use.memory.m_size = 0 ∧
          use.memory.m_size - roundToMultiple len = 0 ∧
          entry.block.address + entry.block.capacity ≤
            location.heapStart + use.memory.s_PreHeapInitIndex.toNat := by
      intro entry member isPreHeap
      obtain ⟨none_, before⟩ := invariant.preHeap entry member isPreHeap
      refine ⟨none_, ?_, before⟩
      by_contra some_
      exact stillKnown some_ none_
    have system : ∀ entry ∈ use.live, entry.source = .system →
        location.heapStart +
            (use.memory.m_size - roundToMultiple len).toNat ≤
          entry.block.address := by
      intro entry member isSystem
      have behind := invariant.system entry member isSystem
      omega
    simp only [if_pos room] at step
    split at step
    case isTrue =>
      cases step
      exact
        { sound := ⟨invariant.sound.long, invariant.sound.inside,
            invariant.sound.apart⟩
          notNull := invariant.notNull
          m_location := invariant.m_location
          known := fun some_ => invariant.known (stillKnown some_)
          m_size := smaller
          preHeap := fun entry member isPreHeap =>
            (preHeap entry member isPreHeap).2
          system := system
          blob := fun entry member isBlob =>
            absurd isBlob (noBlob entry member)
          laidOut := fun laidOut => by
            rw [notYet] at laidOut
            cases laidOut }
    case isFalse notNull =>
      cases step
      have atStart : use.memory.m_location = location.heapStart := by
        apply invariant.m_location.resolve_left
        intro unknown
        have none_ : use.memory.m_size = 0 := by
          by_contra some_
          exact invariant.known some_ unknown
        rw [none_] at left
        rw [unknown, none_, left, Nat.zero_add] at notNull
        exact notNull (Nat.zero_sub _)
      refine
        { sound := invariant.sound.cons long ?_ ?_
          notNull := List.forall_mem_cons.mpr ⟨notNull, invariant.notNull⟩
          m_location := invariant.m_location
          known := fun some_ => invariant.known (stillKnown some_)
          m_size := smaller
          preHeap := List.forall_mem_cons.mpr ⟨fun isPreHeap => ?_,
            fun entry member isPreHeap => (preHeap entry member isPreHeap).2⟩
          system := List.forall_mem_cons.mpr ⟨fun _ => ?_, system⟩
          blob := List.forall_mem_cons.mpr ⟨fun isBlob => ?_,
            fun entry member isBlob => absurd isBlob (noBlob entry member)⟩
          laidOut := fun laidOut => ?_ }
      · simp only [atStart, left]
        omega
      · intro entry member address holds isIn
        simp only [Holds, atStart, left] at holds isIn
        cases isSource : entry.source with
        | preHeap =>
            have none_ := (preHeap entry member isSource).1
            rw [none_] at lengthFits
            simp only [UInt32.reduceToNat] at lengthFits
            omega
        | system =>
            have behind := invariant.system entry member isSource
            omega
        | blob => exact noBlob entry member isSource
      · cases isPreHeap
      · rw [atStart]
      · cases isBlob
      · rw [notYet] at laidOut
        cases laidOut
  · simp only [if_neg room] at step
    cases step
    exact invariant

/-- A blob block is that of a node, and no byte of it changes where nodes are
extracted. -/
theorem blob_keeps
    (invariant : MemoryInvariant heap location use)
    {entry : LiveBlock}
    (member : entry ∈ use.live)
    (isBlob : entry.source = .blob)
    {blocks : UInt32}
    {address : Nat}
    (holds : Holds entry.block address) :
    (heap.Extract_Node use.memory.g_CLR_RT_EventCache use.memory.bytes
        blocks).2.2 address = use.memory.bytes address := by
  obtain ⟨-, -, node, isOut, same⟩ := invariant.blob entry member isBlob
  rw [same] at holds
  exact heap.extract_keeps _ _ _ node isOut address (holds_span holds)

/-- What `Allocate` does when a call is in order. -/
structure Allocates (heap : NodeHeap σ) (location : HeapLocation)
    (use : Use σ) (len : UInt32) : Prop where
  keeps : ∀ entry ∈ use.live, entry.source = .blob →
    ∀ address, Holds entry.block address →
      (use.memory.Allocate heap location len).2.bytes address =
        use.memory.bytes address
  refused : (use.memory.Allocate heap location len).1 = 0 →
    MemoryInvariant heap location
      { use with memory := (use.memory.Allocate heap location len).2 }
  granted : (use.memory.Allocate heap location len).1 ≠ 0 →
    MemoryInvariant heap location
      { use with
        memory := (use.memory.Allocate heap location len).2
        live := use.allocated heap (use.memory.Allocate heap location len).2
          (use.memory.Allocate heap location len).1 len :: use.live }

/-- A piece off the front of a heap that is not known yet. -/
theorem allocates_preHeap
    {len : UInt32}
    (invariant : MemoryInvariant heap location use)
    (unknown : use.memory.m_size = 0)
    (room : use.memory.s_PreHeapInitIndex.toNat + len.toNat ≤
      location.heapSize.toNat)
    (noSystem : ∀ entry ∈ use.live, entry.source ≠ .system) :
    Allocates heap location use len := by
  have inside := location.inside
  have notLonger : ¬ location.heapSize < len := by
    rw [UInt32.lt_iff_toNat_lt]
    omega
  have result : use.memory.Allocate heap location len =
      ((location.heapStart + use.memory.s_PreHeapInitIndex.toNat) % 2 ^ 32,
        { use.memory with
          s_PreHeapInitIndex := use.memory.s_PreHeapInitIndex + len }) := by
    rw [CLR_RT_Memory.Allocate, if_pos unknown, if_neg notLonger]
  have index : (use.memory.s_PreHeapInitIndex + len).toNat =
      use.memory.s_PreHeapInitIndex.toNat + len.toNat := by
    rw [UInt32.toNat_add, Nat.mod_eq_of_lt]
    have sizeFits := location.heapSize.toNat_lt
    omega
  have noBlob : ∀ entry ∈ use.live, entry.source ≠ .blob := by
    intro entry member isBlob
    have laidOut := (invariant.blob entry member isBlob).1
    exact (invariant.laidOut laidOut).1 unknown
  have preHeap : ∀ entry ∈ use.live,
      entry.block.address + entry.block.capacity ≤
        location.heapStart + use.memory.s_PreHeapInitIndex.toNat := by
    intro entry member
    cases isSource : entry.source with
    | preHeap => exact (invariant.preHeap entry member isSource).2
    | system => exact absurd isSource (noSystem entry member)
    | blob => exact absurd isSource (noBlob entry member)
  constructor
  · intro entry member isBlob
    exact absurd isBlob (noBlob entry member)
  · intro _
    rw [result]
    exact
      { invariant with
        sound := ⟨invariant.sound.long, invariant.sound.inside,
          invariant.sound.apart⟩
        preHeap := fun entry member _ => ⟨unknown, by
          have before := preHeap entry member
          simp only [index]
          omega⟩ }
  · rw [result]
    intro notNull
    have noWrap : (location.heapStart +
        use.memory.s_PreHeapInitIndex.toNat) % 2 ^ 32 =
          location.heapStart + use.memory.s_PreHeapInitIndex.toNat := by
      apply Nat.mod_eq_of_lt
      by_contra wraps
      have atEnd : location.heapStart +
          use.memory.s_PreHeapInitIndex.toNat = 2 ^ 32 := by omega
      rw [atEnd] at notNull
      exact notNull rfl
    have new : use.allocated heap
        { use.memory with
          s_PreHeapInitIndex := use.memory.s_PreHeapInitIndex + len }
        (location.heapStart + use.memory.s_PreHeapInitIndex.toNat) len =
          ⟨⟨location.heapStart + use.memory.s_PreHeapInitIndex.toNat,
            len.toNat⟩, len.toNat, .preHeap⟩ := by
      rw [Use.allocated, if_pos unknown]
    simp only [noWrap] at notNull ⊢
    rw [new]
    refine
      { sound := invariant.sound.cons (Nat.le_refl _) ⟨?_, ?_⟩ ?_
        notNull := List.forall_mem_cons.mpr ⟨notNull, invariant.notNull⟩
        m_location := invariant.m_location
        known := invariant.known
        m_size := invariant.m_size
        preHeap := List.forall_mem_cons.mpr ⟨fun _ => ⟨unknown, ?_⟩,
          fun entry member _ => ⟨unknown, ?_⟩⟩
        system := List.forall_mem_cons.mpr ⟨fun isSystem => ?_,
          fun entry member isSystem => absurd isSystem (noSystem entry member)⟩
        blob := List.forall_mem_cons.mpr ⟨fun isBlob => ?_,
          fun entry member isBlob => absurd isBlob (noBlob entry member)⟩
        laidOut := invariant.laidOut }
    · exact Nat.le_add_right _ _
    · simp only
      omega
    · intro entry member address holds isIn
      have before := preHeap entry member
      simp only [Holds] at holds isIn
      omega
    · simp only [index]
      omega
    · have before := preHeap entry member
      simp only [index]
      omega
    · cases isSystem
    · cases isBlob

/-- A blob of the event cache. -/
theorem allocates_blob
    {len : UInt32}
    (invariant : MemoryInvariant heap location use)
    (known : use.memory.m_size ≠ 0)
    (laidOut : use.laidOut = true)
    (fits : len.toNat + 27 < 2 ^ 32) :
    Allocates heap location use len := by
  have region := (invariant.laidOut laidOut).2
  have sizeFits := UInt32.le_iff_toNat_le.mp invariant.m_size
  have noPreHeap : ∀ entry ∈ use.live, entry.source ≠ .preHeap :=
    fun entry member isPreHeap =>
      known (invariant.preHeap entry member isPreHeap).1
  have laterRegion := heap.extract_region use.memory.g_CLR_RT_EventCache
    use.memory.bytes (blobBlocks len)
  have keeps := fun entry member isBlob =>
    @blob_keeps σ heap location use invariant entry member isBlob
      (blobBlocks len)
  cases extracted : (heap.Extract_Node use.memory.g_CLR_RT_EventCache
      use.memory.bytes (blobBlocks len)).1 with
  | none =>
      have result : use.memory.Allocate heap location len =
          (0, { use.memory with
            g_CLR_RT_EventCache :=
              (heap.Extract_Node use.memory.g_CLR_RT_EventCache
                use.memory.bytes (blobBlocks len)).2.1
            bytes := (heap.Extract_Node use.memory.g_CLR_RT_EventCache
              use.memory.bytes (blobBlocks len)).2.2 }) := by
        rw [CLR_RT_Memory.Allocate, if_neg known]
        simp only [extracted]
      have handedOut := heap.extract_none _ _ _ extracted
      constructor
      · intro entry member isBlob address holds
        rw [result]
        exact keeps entry member isBlob holds
      · intro _
        rw [result]
        exact
          { invariant with
            sound := ⟨invariant.sound.long, invariant.sound.inside,
              invariant.sound.apart⟩
            blob := fun entry member isBlob => by
              obtain ⟨isOut, some_, node, isNode, same⟩ :=
                invariant.blob entry member isBlob
              exact ⟨isOut, some_, node, handedOut ▸ isNode, same⟩
            laidOut := fun _ => ⟨known, laterRegion.trans region⟩ }
      · intro notNull
        rw [result] at notNull
        exact absurd rfl notNull
  | some node =>
      have result : use.memory.Allocate heap location len =
          (node.blob.address, { use.memory with
            g_CLR_RT_EventCache :=
              (heap.Extract_Node use.memory.g_CLR_RT_EventCache
                use.memory.bytes (blobBlocks len)).2.1
            bytes := (heap.Extract_Node use.memory.g_CLR_RT_EventCache
              use.memory.bytes (blobBlocks len)).2.2 }) := by
        rw [CLR_RT_Memory.Allocate, if_neg known]
        simp only [extracted]
      obtain ⟨handedOut, large, inRegion, apart⟩ :=
        heap.extract_some _ _ _ _ extracted
      have isOut : node ∈ heap.handedOut
          (heap.Extract_Node use.memory.g_CLR_RT_EventCache use.memory.bytes
            (blobBlocks len)).2.1 := by
        rw [handedOut]
        exact List.mem_cons_self
      rw [toNat_blobBlocks fits] at large
      have capacity : node.blob.capacity = 12 * node.blocks - 16 := rfl
      have address : node.blob.address = node.address + 16 := rfl
      have bounds : location.heapStart ≤ node.address ∧
          node.address + 12 * node.blocks ≤
            location.heapStart + use.memory.m_size.toNat := by
        have spanLength : (span node).capacity = 12 * node.blocks := rfl
        have spanStart : (span node).address = node.address := rfl
        have first := inRegion node.address ⟨by omega, by omega⟩
        have last := inRegion (node.address + 12 * node.blocks - 1)
          ⟨by omega, by omega⟩
        rw [region] at first last
        simp only [Holds] at first last
        omega
      constructor
      · intro entry member isBlob address holds
        rw [result]
        exact keeps entry member isBlob holds
      · intro isNull
        rw [result] at isNull
        simp only at isNull
        omega
      · intro notNull
        rw [result] at notNull ⊢
        have data : GetBlob node.blob.address = node.address :=
          Nat.add_sub_cancel _ _
        have new : use.allocated heap
            { use.memory with
              g_CLR_RT_EventCache :=
                (heap.Extract_Node use.memory.g_CLR_RT_EventCache
                  use.memory.bytes (blobBlocks len)).2.1
              bytes := (heap.Extract_Node use.memory.g_CLR_RT_EventCache
                use.memory.bytes (blobBlocks len)).2.2 }
            node.blob.address len = ⟨node.blob, len.toNat, .blob⟩ := by
          rw [Use.allocated, if_neg known]
          simp only [data, heap.dataSize _ node isOut]
          rfl
        simp only [new]
        refine
          { sound := invariant.sound.cons ?_ ⟨?_, ?_⟩ ?_
            notNull := List.forall_mem_cons.mpr ⟨notNull, invariant.notNull⟩
            m_location := invariant.m_location
            known := invariant.known
            m_size := invariant.m_size
            preHeap := List.forall_mem_cons.mpr ⟨fun isPreHeap => ?_,
              fun entry member isPreHeap =>
                absurd isPreHeap (noPreHeap entry member)⟩
            system := List.forall_mem_cons.mpr ⟨fun isSystem => ?_,
              invariant.system⟩
            blob := List.forall_mem_cons.mpr
              ⟨fun _ => ⟨laidOut, ?_, node, isOut, rfl⟩,
                fun entry member isBlob => ?_⟩
            laidOut := fun _ => ⟨known, laterRegion.trans region⟩ }
        · simp only [capacity]
          omega
        · simp only [address]
          omega
        · simp only [address, capacity]
          omega
        · intro entry member place holds isIn
          cases isSource : entry.source with
          | preHeap => exact noPreHeap entry member isSource
          | system =>
              have behind := invariant.system entry member isSource
              simp only [Holds, address, capacity] at holds isIn
              omega
          | blob =>
              obtain ⟨-, -, other, isOther, same⟩ :=
                invariant.blob entry member isSource
              rw [same] at isIn
              exact apart other isOther place (holds_span holds)
                (holds_span isIn)
        · cases isPreHeap
        · cases isSystem
        · simp only [capacity]
          omega
        · obtain ⟨_, some_, other, isOther, same⟩ :=
            invariant.blob entry member isBlob
          refine ⟨laidOut, some_, other, ?_, same⟩
          rw [handedOut]
          exact List.mem_cons_of_mem _ isOther

theorem allocates
    {len : UInt32}
    (invariant : MemoryInvariant heap location use)
    (mayAllocate : use.MayAllocate location len) :
    Allocates heap location use len := by
  rw [Use.MayAllocate] at mayAllocate
  split at mayAllocate
  case isTrue unknown =>
    exact allocates_preHeap invariant unknown mayAllocate.1 mayAllocate.2
  case isFalse known =>
    exact allocates_blob invariant known mayAllocate.1 mayAllocate.2

/-- The block at an address among the others. -/
theorem exists_of_blockAt
    {ptr : Nat}
    {entry : LiveBlock}
    (found : use.blockAt ptr = some entry) :
    entry.block.address = ptr ∧ ∃ before behind,
      use.live = before ++ entry :: behind ∧
        use.without ptr = before ++ behind ∧
        ∀ other ∈ before, other.block.address ≠ ptr := by
  obtain ⟨here, before, behind, split_, earlier⟩ :=
    List.find?_eq_some_iff_append.mp found
  have different : ∀ other ∈ before, other.block.address ≠ ptr := by
    intro other member
    have := earlier other member
    simpa using this
  refine ⟨of_decide_eq_true here, before, behind, split_, ?_, different⟩
  rw [Use.without, split_, List.eraseP_append_right]
  · exact congrArg _ (List.eraseP_cons_of_pos here)
  · intro other member
    simpa using different other member

/-- Releasing a block leaves the others alone. -/
theorem release_invariant
    {ptr : Nat}
    {entry : LiveBlock}
    (invariant : MemoryInvariant heap location use)
    (found : use.blockAt ptr = some entry)
    (isBlob : use.memory.m_size ≠ 0 → entry.source = .blob) :
    ∃ memory, use.memory.Release heap ptr = some memory ∧
      MemoryInvariant heap location
        { use with memory, live := use.without ptr } ∧
      ∀ other ∈ use.without ptr, other.source = .blob →
        ∀ address, Holds other.block address →
          memory.bytes address = use.memory.bytes address := by
  obtain ⟨here, before, behind, split_, others, earlier⟩ :=
    exists_of_blockAt found
  have fewer : (use.without ptr).Sublist use.live := List.eraseP_sublist
  have member : entry ∈ use.live := by
    rw [split_]
    exact List.mem_append_right _ List.mem_cons_self
  by_cases unknown : use.memory.m_size = 0
  · refine ⟨use.memory, ?_, invariant.sublist fewer, ?_⟩
    · rw [CLR_RT_Memory.Release, if_pos unknown]
    · exact fun _ _ _ _ _ => rfl
  · obtain ⟨laidOut, some_, node, isNode, same⟩ :=
      invariant.blob entry member (isBlob unknown)
    have notNull := invariant.notNull entry member
    rw [here] at notNull
    have data : GetBlob ptr = node.address := by
      rw [← here, same]
      exact Nat.add_sub_cancel _ _
    have result : use.memory.Release heap ptr =
        some { use.memory with
          g_CLR_RT_EventCache := (heap.Append_Node
            use.memory.g_CLR_RT_EventCache use.memory.bytes node.address).1
          bytes := (heap.Append_Node
            use.memory.g_CLR_RT_EventCache use.memory.bytes
            node.address).2 } := by
      rw [CLR_RT_Memory.Release, if_neg unknown, if_neg notNull, data,
        if_pos (heap.binaryBlob _ node isNode)]
    -- no two blobs start at one address
    have differs : ∀ other ∈ use.without ptr, other.source = .blob →
        other.block.address ≠ ptr := by
      intro other isOther otherBlob
      rw [others] at isOther
      rcases List.mem_append.mp isOther with isBefore | isBehind
      · exact earlier other isBefore
      · have apart := invariant.sound.apart
        rw [split_, List.pairwise_append, List.pairwise_cons] at apart
        have isLive : other ∈ use.live := by
          rw [split_]
          exact List.mem_append_right _ (List.mem_cons_of_mem _ isBehind)
        rw [← here]
        exact (apart.2.1.1 other isBehind).address_ne some_
          (invariant.blob other isLive otherBlob).2.1
    refine ⟨_, result, ?_, ?_⟩
    · have left := invariant.sublist fewer
      exact
        { left with
          sound := ⟨left.sound.long, left.sound.inside, left.sound.apart⟩
          blob := fun other isOther otherBlob => by
            obtain ⟨_, otherSome, otherNode, isOut, otherSame⟩ :=
              left.blob other isOther otherBlob
            refine ⟨laidOut, otherSome, otherNode, ?_, otherSame⟩
            apply (heap.append_handedOut _ _ node isNode otherNode).mpr
            refine ⟨isOut, ?_⟩
            have different := differs other isOther otherBlob
            rw [otherSame, ← here, same] at different
            intro sameAddress
            apply different
            simp only [EventNode.blob, sameAddress]
          laidOut := fun _ => ⟨unknown,
            (heap.append_region _ _ _).trans (invariant.laidOut laidOut).2⟩ }
    · intro other isOther otherBlob address holds
      obtain ⟨-, -, otherNode, isOut, otherSame⟩ :=
        invariant.blob other (fewer.mem isOther) otherBlob
      apply heap.append_keeps _ _ node isNode otherNode isOut
      · have different := differs other isOther otherBlob
        rw [otherSame, ← here, same] at different
        intro sameAddress
        apply different
        simp only [EventNode.blob, sameAddress]
      · rw [otherSame] at holds
        exact holds_span holds

/-- The block of a node that has been handed out. -/
theorem allocated_eq
    {memory : CLR_RT_Memory σ}
    {node : EventNode}
    (known : use.memory.m_size ≠ 0)
    (isOut : node ∈ heap.handedOut memory.g_CLR_RT_EventCache)
    (len : UInt32) :
    use.allocated heap memory node.blob.address len =
      ⟨node.blob, len.toNat, .blob⟩ := by
  have data : GetBlob node.blob.address = node.address :=
    Nat.add_sub_cancel _ _
  rw [Use.allocated, if_neg known]
  simp only [data, heap.dataSize _ node isOut]
  rfl

theorem reAllocate_refused
    {ptr : Nat}
    {len : UInt32}
    (isNull : (use.memory.Allocate heap location len).1 = 0) :
    use.memory.ReAllocate heap location ptr len =
      some (0, (use.memory.Allocate heap location len).2) := by
  rw [CLR_RT_Memory.ReAllocate]
  exact if_pos isNull

theorem reAllocate_new
    {len : UInt32}
    (notNull : (use.memory.Allocate heap location len).1 ≠ 0) :
    use.memory.ReAllocate heap location 0 len =
      some (use.memory.Allocate heap location len) := by
  rw [CLR_RT_Memory.ReAllocate]
  exact (if_neg notNull).trans (if_pos rfl)

theorem reAllocate_copy
    {ptr : Nat}
    {len : UInt32}
    (notNull : (use.memory.Allocate heap location len).1 ≠ 0)
    (some_ : ptr ≠ 0) :
    use.memory.ReAllocate heap location ptr len =
      ({ (use.memory.Allocate heap location len).2 with
          bytes := memcpy (use.memory.Allocate heap location len).2.bytes
            (use.memory.Allocate heap location len).1 ptr
            ((use.memory.Allocate heap location len).2.copiedLength heap ptr
              len) }.Release heap ptr).map
        fun memory => ((use.memory.Allocate heap location len).1, memory) := by
  rw [CLR_RT_Memory.ReAllocate]
  exact (if_neg notNull).trans (if_neg some_)

/-- The copy is no longer than the new block. -/
theorem copiedLength_le
    {memory : CLR_RT_Memory σ}
    {ptr : Nat}
    {len : UInt32} :
    memory.copiedLength heap ptr len ≤ len.toNat := by
  rw [CLR_RT_Memory.copiedLength]
  split
  case isTrue shorter => exact Nat.le_of_lt shorter
  case isFalse => exact Nat.le_refl _

/-- A block is moved: a new one, the copy, and the release of the old one. -/
theorem reAllocate_moves
    {ptr : Nat}
    {len : UInt32}
    {later : Use σ}
    {old : LiveBlock}
    (invariant : MemoryInvariant heap location use)
    (mayAllocate : use.MayAllocate location len)
    (notNull : ptr ≠ 0)
    (known : use.memory.m_size ≠ 0)
    (found : use.blockAt ptr = some old)
    (isBlob : old.source = .blob)
    (shorter : len.toNat ≤ old.block.capacity)
    (step : use.next heap location (.reAllocate ptr len) = some later) :
    MemoryInvariant heap location later ∧
      use.Moves heap location ptr len later old := by
  have allocation := allocates invariant mayAllocate
  obtain ⟨here, before, behind, split_, -, -⟩ := exists_of_blockAt found
  have member : old ∈ use.live := by
    rw [split_]
    exact List.mem_append_right _ List.mem_cons_self
  have long := invariant.sound.long old member
  have present : ¬ (ptr ≠ 0 ∧ (use.blockAt ptr).isNone) := by
    simp [found]
  simp only [Use.next, if_neg present] at step
  by_cases isNull : (use.memory.Allocate heap location len).1 = 0
  · rw [reAllocate_refused isNull] at step
    cases step
    refine ⟨allocation.refused isNull, ?_, ?_, ?_⟩
    · exact fun isSome => absurd isNull isSome
    · exact fun isSome => absurd isNull isSome
    · exact fun _ => ⟨rfl, allocation.keeps old member isBlob⟩
  · have granted := allocation.granted isNull
    have keeps := allocation.keeps old member isBlob
    rw [reAllocate_copy isNull notNull] at step
    generalize allocated_ : (use.memory.Allocate heap location len).2 = memory
      at granted keeps step
    generalize returned : (use.memory.Allocate heap location len).1 = p
      at granted step isNull
    let copying : Use σ :=
      { use with
        memory :=
          { memory with
            bytes := memcpy memory.bytes p ptr
              (memory.copiedLength heap ptr len) }
        live := use.allocated heap memory p len :: use.live }
    have copied : MemoryInvariant heap location copying :=
      granted.withBytes _
    have blobIs : ∀ memory : CLR_RT_Memory σ,
        (use.allocated heap memory p len).block.address = p ∧
          (use.allocated heap memory p len).source = .blob ∧
          (use.allocated heap memory p len).length = len.toNat := by
      intro memory
      rw [Use.allocated, if_neg known]
      exact ⟨rfl, rfl, rfl⟩
    obtain ⟨atP, newBlob, newLength⟩ := blobIs memory
    have newSome := (copied.blob _ List.mem_cons_self newBlob).2.1
    have oldLive : old ∈ copying.live := List.mem_cons_of_mem _ member
    obtain ⟨-, oldSome, oldNode, oldOut, oldSame⟩ :=
      copied.blob old oldLive isBlob
    have different : (use.allocated heap memory p len).block.address ≠ ptr := by
      rw [← here]
      apply Ne.symm
      exact ((List.pairwise_cons.mp copied.sound.apart).1 old member).address_ne
        newSome oldSome
    have foundThere : copying.blockAt ptr = some old :=
      (List.find?_cons_of_neg (by simpa using different)).trans found
    have left : copying.without ptr =
        use.allocated heap memory p len :: use.without ptr :=
      List.eraseP_cons_of_neg (by simpa using different)
    obtain ⟨memory', released, invariant', kept⟩ :=
      release_invariant copied foundThere fun _ => isBlob
    have called : { memory with
          bytes := memcpy memory.bytes p ptr
            (memory.copiedLength heap ptr len) }.Release heap ptr =
        some memory' := released
    simp only [called, Option.map_some, if_neg isNull,
      Option.some.injEq] at step
    subst step
    rw [left] at invariant' kept
    have same : use.allocated heap memory' p len =
        use.allocated heap memory p len := by
      obtain ⟨-, -, node, isOut, isNode⟩ :=
        invariant'.blob _ List.mem_cons_self newBlob
      have address : node.blob.address = p := by
        rw [← isNode]
        exact atP
      have again := allocated_eq known isOut len
      rw [address] at again
      rw [again, ← isNode, Use.allocated, if_neg known]
    refine ⟨?_, ?_, ?_, ?_⟩
    · rw [same]
      exact invariant'
    · intro _
      rw [allocated_]
      exact copiedLength_le.trans shorter
    · intro _
      refine ⟨use.allocated heap memory' p len, rfl, (blobIs memory').2.2, ?_⟩
      intro index inside
      rw [same, atP]
      have newLong := granted.sound.long _ List.mem_cons_self
      rw [newLength] at newLong
      have isNew : Holds (use.allocated heap memory p len).block
          (p + index) := by
        rw [Holds, atP]
        omega
      have whole : memory.copiedLength heap ptr len = len.toNat := by
        have data : GetBlob ptr = oldNode.address := by
          rw [← here, oldSame]
          exact Nat.add_sub_cancel _ _
        have capacity : old.block.capacity = 12 * oldNode.blocks - 16 := by
          rw [oldSame]
          rfl
        rw [CLR_RT_Memory.copiedLength, data, heap.dataSize _ oldNode oldOut]
        apply if_neg
        simp only [sizeofHeapBlock, UInt32.reduceToNat]
        omega
      rw [kept _ List.mem_cons_self newBlob _ isNew]
      show memcpy memory.bytes p ptr (memory.copiedLength heap ptr len)
        (p + index) = _
      rw [whole, memcpy, if_pos ⟨by omega, by omega⟩, Nat.add_sub_cancel_left]
      apply keeps
      rw [Holds, here]
      omega
    · intro none_
      rw [returned] at none_
      exact absurd none_ isNull

end Calls

end NativeMemory

end NanoClr
