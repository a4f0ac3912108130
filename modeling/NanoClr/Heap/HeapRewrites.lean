import NanoClr.Heap.HeapRuns

/-!
# Writing to the blocks of a heap

While the collector runs, free blocks may be missing in the free lists, but
every payload is still tiled by blocks.  The words that the heap does not
manage itself are in use: the blocks that are allocated, and everything outside
the clusters.  Writing to words in use leaves the heap laid out as it is when
it keeps the types and sizes of the blocks, and an allocation leaves all words
in use alone.
-/

namespace NanoClr

open HeapBlock HeapCluster

/-- A heap whose payloads are tiled, whatever the free lists hold. -/
structure HeapLaid (heap : Heap) : Prop where
  clusters : ∀ cluster ∈ heap.clusters,
    ∃ blocks, Laid heap.memory cluster blocks
  separate : heap.clusters.Pairwise fun left right =>
    payloadEnd heap.memory left ≤ right ∨ payloadEnd heap.memory right ≤ left

/-- A word outside the clusters, or in a block that is allocated. -/
def InUse (heap : Heap) (address : Nat) : Prop :=
  (∀ cluster ∈ heap.clusters,
    address < cluster ∨ payloadEnd heap.memory cluster ≤ address) ∨
  ∃ cluster ∈ heap.clusters, ∃ block,
    Allocated heap.memory cluster block ∧ block ≤ address ∧
      address < block + words heap.memory block

namespace HeapCluster

variable {memory : Memory} {cluster : Nat} {blocks : List Nat}

/-- A well-formed cluster is laid out. -/
theorem WellFormed.laid (wellFormed : WellFormed memory cluster blocks) :
    Laid memory cluster blocks where
  start := wellFormed.start
  small := wellFormed.small
  tiling := wellFormed.tiling
  unmarked := by
    intro block free
    rw [isAlive, isFlagSet, wellFormed.pinned block free]
    rfl

namespace Laid

variable (laid : Laid memory cluster blocks)

include laid

/-- Where a block lies. -/
theorem place {block : Nat} (member : block ∈ blocks) :
    cluster + 8 ≤ block ∧ block % 3 = (cluster + 8) % 3 ∧
      3 ≤ words memory block ∧
      block + words memory block ≤ payloadEnd memory cluster :=
  laid.tiling.place member

theorem hasBlocks : HasBlocks memory cluster blocks := by
  rw [HasBlocks, laid.start]
  exact laid.tiling

theorem allocated_iff {block : Nat} :
    Allocated memory cluster block ↔
      block ∈ blocks ∧ isFree memory block = false := by
  constructor
  · rintro ⟨used, other, has, member⟩
    have same : other = blocks := Tiling.unique has laid.hasBlocks
    exact ⟨same ▸ member, used⟩
  · rintro ⟨member, used⟩
    exact ⟨used, blocks, laid.hasBlocks, member⟩

end Laid

end HeapCluster

/-- A well-formed heap is laid out. -/
theorem HeapWellFormed.laid {heap : Heap} (wellFormed : HeapWellFormed heap) :
    HeapLaid heap where
  clusters := by
    intro cluster member
    obtain ⟨blocks, own⟩ := wellFormed.clusters cluster member
    exact ⟨blocks, own.laid⟩
  separate := wellFormed.separate

namespace HeapLaid

variable {heap : Heap}

/-- Two clusters of a heap do not overlap. -/
theorem apart
    (laid : HeapLaid heap)
    {left right : Nat}
    (leftMember : left ∈ heap.clusters)
    (rightMember : right ∈ heap.clusters)
    (different : left ≠ right) :
    payloadEnd heap.memory left ≤ right ∨
      payloadEnd heap.memory right ≤ left := by
  have : Std.Symm fun left right : Nat =>
      payloadEnd heap.memory left ≤ right ∨
        payloadEnd heap.memory right ≤ left := ⟨fun _ _ => Or.symm⟩
  exact laid.separate.forall leftMember rightMember different

/-- Two allocated blocks of a heap are the same or do not overlap. -/
theorem disjoint
    (laid : HeapLaid heap)
    {left right block other : Nat}
    (leftMember : left ∈ heap.clusters)
    (rightMember : right ∈ heap.clusters)
    (leftAllocated : Allocated heap.memory left block)
    (rightAllocated : Allocated heap.memory right other)
    (different : block ≠ other) :
    block + words heap.memory block ≤ other ∨
      other + words heap.memory other ≤ block := by
  obtain ⟨blocks, own⟩ := laid.clusters left leftMember
  obtain ⟨others, isLaid⟩ := laid.clusters right rightMember
  have isBlock := (own.allocated_iff.mp leftAllocated).1
  have isOther := (isLaid.allocated_iff.mp rightAllocated).1
  by_cases same : left = right
  · subst same
    have isOther := (own.allocated_iff.mp rightAllocated).1
    exact own.tiling.disjoint isBlock isOther different
  · have place := own.place isBlock
    have placeOther := isLaid.place isOther
    have := laid.apart leftMember rightMember same
    omega

/-- A word of a cluster is in use in no other cluster. -/
theorem inUse_own
    (laid : HeapLaid heap)
    {cluster : Nat}
    (member : cluster ∈ heap.clusters)
    {address : Nat}
    (lower : cluster ≤ address)
    (upper : address < payloadEnd heap.memory cluster) :
    InUse heap address ↔
      ∃ block, Allocated heap.memory cluster block ∧ block ≤ address ∧
        address < block + words heap.memory block := by
  constructor
  · rintro (outside | ⟨other, otherMember, block, allocated, inside⟩)
    · have := outside cluster member
      omega
    · have same : other = cluster := by
        by_contra different
        obtain ⟨blocks, own⟩ := laid.clusters other otherMember
        have place := own.place (own.allocated_iff.mp allocated).1
        have := laid.apart otherMember member different
        omega
      exact ⟨block, same ▸ allocated, inside⟩
  · rintro ⟨block, allocated, inside⟩
    exact .inr ⟨cluster, member, block, allocated, inside⟩

/-- The header of a cluster is not in use. -/
theorem header_not_inUse
    (laid : HeapLaid heap)
    {cluster : Nat}
    (member : cluster ∈ heap.clusters)
    {address : Nat}
    (lower : cluster ≤ address)
    (upper : address < cluster + 8) :
    ¬ InUse heap address := by
  obtain ⟨blocks, own⟩ := laid.clusters cluster member
  have span := own.tiling.start_le_stop
  rw [laid.inUse_own member lower (by omega)]
  rintro ⟨block, allocated, inside⟩
  have place := own.place (own.allocated_iff.mp allocated).1
  omega

/-- A free block is not in use. -/
theorem free_not_inUse
    (laid : HeapLaid heap)
    {cluster : Nat}
    (member : cluster ∈ heap.clusters)
    {blocks : List Nat}
    (own : Laid heap.memory cluster blocks)
    {block : Nat}
    (free : block ∈ freeOf heap.memory blocks) :
    ¬ InUse heap block := by
  obtain ⟨isBlock, isFreeBlock⟩ := mem_freeOf.mp free
  have place := own.place isBlock
  rw [laid.inUse_own member (by omega) (by omega)]
  rintro ⟨other, allocated, inside⟩
  obtain ⟨isOther, used⟩ := own.allocated_iff.mp allocated
  have different : block ≠ other := by
    rintro rfl
    rw [isFreeBlock] at used
    cases used
  have := own.tiling.disjoint isBlock isOther different
  omega

end HeapLaid

/-! ## Rewriting words in use -/

/-- Memory differs from that of a heap in words in use only, and the blocks
have their types and sizes. -/
structure Rewrites (heap : Heap) (memory : Memory) : Prop where
  unused : ∀ address, ¬ InUse heap address →
    memory address = heap.memory address
  blocks : ∀ cluster ∈ heap.clusters, ∀ block,
    Allocated heap.memory cluster block →
      dataTypeCode memory block = dataTypeCode heap.memory block ∧
        dataSize memory block = dataSize heap.memory block

namespace Rewrites

variable {heap : Heap} {memory : Memory}

/-- The payload bounds are in the header. -/
theorem bounds
    (rewrites : Rewrites heap memory)
    (laid : HeapLaid heap)
    {cluster : Nat}
    (member : cluster ∈ heap.clusters) :
    payloadStart memory cluster = payloadStart heap.memory cluster ∧
      payloadEnd memory cluster = payloadEnd heap.memory cluster :=
  ⟨rewrites.unused _ (laid.header_not_inUse member (by omega) (by omega)),
    rewrites.unused _ (laid.header_not_inUse member (by omega) (by omega))⟩

/-- A rewritten cluster has the same blocks, with the same types and sizes. -/
theorem cluster
    (rewrites : Rewrites heap memory)
    (laid : HeapLaid heap)
    {cluster : Nat}
    (member : cluster ∈ heap.clusters)
    {blocks : List Nat}
    (own : Laid heap.memory cluster blocks) :
    Laid memory cluster blocks ∧
      ∀ block ∈ blocks,
        dataTypeCode memory block = dataTypeCode heap.memory block ∧
          dataSize memory block = dataSize heap.memory block := by
  have free (block : Nat) (isFreeBlock : block ∈ freeOf heap.memory blocks) :
      memory block = heap.memory block :=
    rewrites.unused _ (laid.free_not_inUse member own isFreeBlock)
  have same (block : Nat) (isBlock : block ∈ blocks) :
      dataTypeCode memory block = dataTypeCode heap.memory block ∧
        dataSize memory block = dataSize heap.memory block := by
    cases isFreeBlock : isFree heap.memory block with
    | true =>
        have sameId := free block (mem_freeOf.mpr ⟨isBlock, isFreeBlock⟩)
        exact ⟨by rw [dataTypeCode, dataTypeCode, sameId],
          (fields_congr sameId).2.2⟩
    | false =>
        exact rewrites.blocks cluster member block
          (own.allocated_iff.mpr ⟨isBlock, isFreeBlock⟩)
  have sameType (block : Nat) (isBlock : block ∈ blocks) :
      isFree memory block = isFree heap.memory block := by
    rw [isFree, isFree, dataType, dataType, (same block isBlock).1]
  have sameFree : freeOf memory blocks = freeOf heap.memory blocks :=
    List.filter_congr sameType
  have bounds := rewrites.bounds laid member
  refine ⟨?_, same⟩
  exact {
    start := bounds.1.trans own.start
    small := by
      rw [bounds.2]
      exact own.small
    tiling := by
      rw [bounds.2]
      refine Tiling.congr own.tiling fun block isBlock => ?_
      rw [words, words, (same block isBlock).2]
    unmarked := by
      intro block isFreeBlock
      rw [sameFree] at isFreeBlock
      rw [isAlive, isFlagSet, (fields_congr (free block isFreeBlock)).2.1]
      exact own.unmarked block isFreeBlock }

/-- A rewritten heap is laid out. -/
theorem laid
    (rewrites : Rewrites heap memory)
    (laid : HeapLaid heap) :
    HeapLaid ⟨memory, heap.clusters⟩ where
  clusters := by
    intro cluster member
    obtain ⟨blocks, own⟩ := laid.clusters cluster member
    exact ⟨blocks, (rewrites.cluster laid member own).1⟩
  separate := by
    refine laid.separate.imp_of_mem ?_
    intro left right leftMember rightMember apart
    simp only [(rewrites.bounds laid leftMember).2,
      (rewrites.bounds laid rightMember).2]
    exact apart

/-- A rewritten heap has the same blocks allocated. -/
theorem allocated_iff
    (rewrites : Rewrites heap memory)
    (laid : HeapLaid heap)
    {cluster : Nat}
    (member : cluster ∈ heap.clusters)
    (block : Nat) :
    Allocated memory cluster block ↔ Allocated heap.memory cluster block := by
  obtain ⟨blocks, own⟩ := laid.clusters cluster member
  obtain ⟨own', same⟩ := rewrites.cluster laid member own
  rw [own.allocated_iff, own'.allocated_iff]
  apply and_congr_right
  intro isBlock
  rw [isFree, isFree, dataType, dataType, (same block isBlock).1]

/-- A rewritten heap has the same words in use. -/
theorem inUse_iff
    (rewrites : Rewrites heap memory)
    (laid : HeapLaid heap)
    (address : Nat) :
    InUse ⟨memory, heap.clusters⟩ address ↔ InUse heap address := by
  unfold InUse
  apply or_congr
  · apply forall₂_congr
    intro cluster member
    rw [(rewrites.bounds laid member).2]
  · apply exists_congr
    intro cluster
    apply and_congr_right
    intro member
    apply exists_congr
    intro block
    rw [rewrites.allocated_iff laid member]
    apply and_congr_right
    intro allocated
    rw [words, words, (rewrites.blocks cluster member block allocated).2]

end Rewrites

/-! ## Allocations -/

/-- What an allocation does to a heap: the words in use are left alone and stay
in use, and the blocks that are new are events, which are born alive. -/
structure Allocates (heap : Heap) (memory : Memory) : Prop where
  laid : HeapLaid ⟨memory, heap.clusters⟩
  bounds : ∀ cluster ∈ heap.clusters,
    payloadStart memory cluster = payloadStart heap.memory cluster ∧
      payloadEnd memory cluster = payloadEnd heap.memory cluster
  kept : ∀ address, InUse heap address →
    memory address = heap.memory address ∧
      InUse ⟨memory, heap.clusters⟩ address
  allocated : ∀ cluster ∈ heap.clusters, ∀ block,
    Allocated heap.memory cluster block → Allocated memory cluster block
  fresh : ∀ cluster ∈ heap.clusters, ∀ block,
    Allocated memory cluster block →
      Allocated heap.memory cluster block ∨
        isEvent memory block = true ∧ isAlive memory block = true

/-- Extracting an event block is an allocation. -/
theorem extractBlocks_allocates
    {heap : Heap}
    (wellFormed : HeapWellFormed heap)
    {cluster : Nat}
    (member : cluster ∈ heap.clusters)
    {kind : DataType}
    (notFree : kind ≠ .freeBlock)
    {flags length block : Nat}
    {memory : Memory}
    (isEventFlags : flags &&& (HB_Alive ||| HB_Event) =
      HB_Alive ||| HB_Event)
    (positive : 1 ≤ length)
    (succeeds : block ≠ 0)
    (returns : extractBlocks heap.memory cluster kind.code flags length =
      some (memory, block)) :
    Allocates heap memory := by
  obtain ⟨blocks, own⟩ := wellFormed.clusters cluster member
  rcases extractBlocks_spec own notFree flags positive with
    ⟨fails, _⟩ | ⟨memory', block', blocks', _, returns', extracted⟩
  · rw [fails] at returns
    cases returns
    exact absurd rfl succeeds
  · rw [returns'] at returns
    cases returns
    have isLocal : Local heap.memory memory cluster :=
      ⟨extracted.preserves.outside, extracted.preserves.stop⟩
    have wellFormed' := wellFormed.update isLocal member extracted.wellFormed
    have keeps (other : Nat) (otherMember : other ∈ heap.clusters) (used : Nat)
        (allocated : Allocated heap.memory other used) :
        Allocated memory other used ∧ Unaltered heap.memory memory used := by
      by_cases different : other = cluster
      · subst different
        obtain ⟨isBlock, notFreeBlock⟩ := own.allocated_iff.mp allocated
        obtain ⟨stays, unaltered⟩ :=
          extracted.preserves.used used isBlock notFreeBlock (by simp)
        have place := own.place isBlock
        have sameId := unaltered used (Nat.le_refl _) (by omega)
        exact ⟨extracted.wellFormed.allocated_iff.mpr
          ⟨stays, by rw [isFree_congr sameId, notFreeBlock]⟩, unaltered⟩
      · exact wellFormed.keepsOther isLocal member otherMember different
          allocated
    have bounds (other : Nat) (otherMember : other ∈ heap.clusters) :
        payloadStart memory other = payloadStart heap.memory other ∧
          payloadEnd memory other = payloadEnd heap.memory other := by
      by_cases different : other = cluster
      · rw [different]
        exact ⟨extracted.wellFormed.start.trans own.start.symm, isLocal.stop⟩
      · obtain ⟨others, isWellFormed⟩ := wellFormed.clusters other otherMember
        have := isWellFormed.tiling.start_le_stop
        exact ⟨wellFormed.elsewhere isLocal member otherMember different
            (by omega) (by omega),
          wellFormed.elsewhere isLocal member otherMember different
            (by omega) (by omega)⟩
    have newFlags : isEvent memory block = true ∧
        isAlive memory block = true := by
      have bits : flags % 0x100 &&& (HB_Alive ||| HB_Event) =
          HB_Alive ||| HB_Event := by
        rw [show (0x100 : Nat) = 2 ^ 8 from rfl, ← Nat.and_two_pow_sub_one_eq_mod,
          Nat.and_assoc, Nat.and_comm (2 ^ 8 - 1), ← Nat.and_assoc,
          isEventFlags]
        decide
      have small : ∀ byte < 0x100,
          byte &&& (HB_Alive ||| HB_Event) = HB_Alive ||| HB_Event →
          (byte &&& HB_Event != 0) = true ∧ (byte &&& HB_Alive != 0) = true := by
        decide +kernel
      rw [isEvent, isAlive, isFlagSet, isFlagSet, extracted.flagged]
      exact small _ (Nat.mod_lt flags (by decide)) bits
    refine ⟨wellFormed'.laid, bounds, ?_, ?_, ?_⟩
    · rintro address (outside | ⟨other, otherMember, used, allocated, inside⟩)
      · refine ⟨isLocal.outside address (outside cluster member), .inl ?_⟩
        intro other otherMember
        rw [(bounds other otherMember).2]
        exact outside other otherMember
      · obtain ⟨stays, unaltered⟩ := keeps other otherMember used allocated
        obtain ⟨others, isWellFormed⟩ := wellFormed.clusters other otherMember
        have place := isWellFormed.place
          (isWellFormed.allocated_iff.mp allocated).1
        have sameWords : words memory used = words heap.memory used := by
          rw [words, words,
            (fields_congr (unaltered used (Nat.le_refl _) (by omega))).2.2]
        refine ⟨unaltered address inside.1 inside.2,
          .inr ⟨other, otherMember, used, stays, inside.1, ?_⟩⟩
        rw [sameWords]
        exact inside.2
    · intro other otherMember used allocated
      exact (keeps other otherMember used allocated).1
    · intro other otherMember used allocated
      by_cases different : other = cluster
      · subst different
        obtain ⟨isBlock, notFreeBlock⟩ :=
          extracted.wellFormed.allocated_iff.mp allocated
        rcases extracted.fresh used isBlock notFreeBlock with rfl | isOld
        · exact .inr newFlags
        · exact .inl (own.allocated_iff.mpr isOld)
      · obtain ⟨others, isWellFormed⟩ := wellFormed.clusters other otherMember
        have same (address : Nat) (lower : other ≤ address)
            (upper : address < payloadEnd heap.memory other) :=
          wellFormed.elsewhere isLocal member otherMember different lower
            upper
        have isWellFormed' := isWellFormed.congr same
        obtain ⟨isBlock, notFreeBlock⟩ :=
          isWellFormed'.allocated_iff.mp allocated
        have place := isWellFormed.place isBlock
        refine .inl (isWellFormed.allocated_iff.mpr ⟨isBlock, ?_⟩)
        rw [← isFree_congr (same used (by omega) (by omega)), notFreeBlock]

end NanoClr
