import NanoClr.Heap.HeapClusterInitialize
import NanoClr.Heap.InsertInOrder
import NanoClr.Library.TransitionSystem

/-!
# Runs of a heap of clusters

Clusters are initialized on erased memory that no other cluster uses; after
that, blocks are extracted, marked and swept, and released in runs.  In every
heap reached by such operations every cluster is well formed.
-/

namespace NanoClr

open HeapBlock HeapCluster

/-- A heap: the memory and the addresses of its clusters. -/
structure Heap where
  memory : Memory
  clusters : List Nat

/-- The payload of a cluster is tiled by the blocks. -/
def HasBlocks (memory : Memory) (cluster : Nat) (blocks : List Nat) : Prop :=
  HeapTiling memory (payloadEnd memory cluster) (payloadStart memory cluster)
    blocks

/-- A block of a cluster that is not free. -/
def Allocated (memory : Memory) (cluster block : Nat) : Prop :=
  isFree memory block = false ∧
    ∃ blocks, HasBlocks memory cluster blocks ∧ block ∈ blocks

/-- Mark some blocks alive or dead. -/
def applyMarks (memory : Memory) : List (Nat × Bool) → Memory
  | [] => memory
  | (block, alive) :: rest =>
      applyMarks
        (if alive then markAlive memory block else markDead memory block) rest

/-- A run of blocks in use that is given back: it starts at `node` and has the
given size. -/
structure ReleasedRun
    (memory : Memory) (cluster node size : Nat) (run : List Nat) : Prop where
  nonempty : run ≠ []
  used : ∀ block ∈ run, isFree memory block = false
  tiled : HeapTiling memory (node + 3 * size) node run
  inCluster : ∃ before after,
    HasBlocks memory cluster (before ++ run ++ after)

/-- The operations on a heap. -/
inductive HeapStep : Heap → Heap → Prop
  | create {heap : Heap} {cluster size blockSize : Nat} {memory : Memory} :
      headerBytes < size → size ≤ c_HeapClusterSize → 1 ≤ blockSize →
      (∀ address, cluster ≤ address →
        address < cluster + 8 + 3 * payloadBlocks size →
          heap.memory address = 0) →
      (∀ other ∈ heap.clusters,
        payloadEnd heap.memory other ≤ cluster ∨
          cluster + 8 + 3 * payloadBlocks size ≤ other) →
      heapClusterInitialize heap.memory cluster size blockSize = some memory →
      HeapStep heap ⟨memory, heap.clusters ++ [cluster]⟩
  | extract {heap : Heap} {cluster : Nat} {kind : DataType}
      {flags length block : Nat} {memory : Memory} :
      cluster ∈ heap.clusters → kind ≠ .freeBlock → 1 ≤ length →
      extractBlocks heap.memory cluster kind.code flags length =
        some (memory, block) →
      HeapStep heap ⟨memory, heap.clusters⟩
  | recover {heap : Heap} {cluster : Nat} {marks : List (Nat × Bool)}
      {memory : Memory} :
      cluster ∈ heap.clusters →
      (∀ mark ∈ marks, Allocated heap.memory cluster mark.1) →
      recoverFromGC (applyMarks heap.memory marks) cluster = some memory →
      HeapStep heap ⟨memory, heap.clusters⟩
  | insert {heap : Heap} {cluster node size block : Nat} {run : List Nat}
      {memory : Memory} :
      cluster ∈ heap.clusters →
      ReleasedRun heap.memory cluster node size run →
      insertInOrder heap.memory cluster node size = some (memory, block) →
      HeapStep heap ⟨memory, heap.clusters⟩

/-- Heaps that operations build from nothing. -/
def HeapReachable : Heap → Prop :=
  Reachable (fun heap => heap.clusters = []) HeapStep

/-- The invariant of a heap: its clusters are well formed and do not overlap. -/
structure HeapWellFormed (heap : Heap) : Prop where
  clusters : ∀ cluster ∈ heap.clusters,
    ∃ blocks, WellFormed heap.memory cluster blocks
  separate : heap.clusters.Pairwise fun left right =>
    payloadEnd heap.memory left ≤ right ∨ payloadEnd heap.memory right ≤ left

/-- The identity of a block differs in the mark at most, and the rest of it
does not differ. -/
structure SameButMark (memory memory' : Memory) (block : Nat) : Prop where
  type : dataTypeCode memory' block = dataTypeCode memory block
  size : dataSize memory' block = dataSize memory block
  flags : dataFlags memory' block ||| HB_Alive =
    dataFlags memory block ||| HB_Alive
  contents : ∀ address, block < address →
    address < block + words memory block → memory' address = memory address

namespace SameButMark

variable {memory memory' memory'' : Memory} {block : Nat}

theorem refl : SameButMark memory memory block :=
  ⟨rfl, rfl, rfl, fun _ _ _ => rfl⟩

theorem trans
    (first : SameButMark memory memory' block)
    (second : SameButMark memory' memory'' block) :
    SameButMark memory memory'' block where
  type := second.type.trans first.type
  size := second.size.trans first.size
  flags := second.flags.trans first.flags
  contents := by
    intro address lower upper
    have sameWords : words memory' block = words memory block := by
      rw [words, words, first.size]
    rw [second.contents address lower (by omega)]
    exact first.contents address lower upper

theorem isFree (same : SameButMark memory memory' block) :
    isFree memory' block = isFree memory block := by
  have sameType : dataType memory' block = dataType memory block := by
    rw [dataType, dataType, same.type]
  rw [NanoClr.isFree, NanoClr.isFree, sameType]

theorem words (same : SameButMark memory memory' block) :
    HeapBlock.words memory' block = HeapBlock.words memory block := by
  rw [HeapBlock.words, HeapBlock.words, same.size]

/-- Writing the identity of a block with other marks only. -/
theorem of_setDataId
    {flags : Nat}
    (sameFlags : flags % 0x100 ||| HB_Alive =
      dataFlags memory block ||| HB_Alive) :
    SameButMark memory (setDataId memory block (rawId
      (dataTypeCode memory block) flags (dataSize memory block))) block where
  type := by simp [dataTypeCode, setDataId_same]
  size := by simp [dataSize, setDataId_same]
  flags := by simpa [dataFlags, setDataId_same] using sameFlags
  contents := fun address lower _ => setDataId_other _ _ _ _ (by omega)

theorem markAlive (memory : Memory) (block : Nat) :
    SameButMark memory (markAlive memory block) block := by
  refine of_setDataId ?_
  have bound := dataFlags_lt memory block
  generalize dataFlags memory block = flags at bound
  revert flags
  decide +kernel

theorem markDead (memory : Memory) (block : Nat) :
    SameButMark memory (markDead memory block) block := by
  refine of_setDataId ?_
  have bound := dataFlags_lt memory block
  generalize dataFlags memory block = flags at bound
  revert flags
  decide +kernel

/-- A sweep takes nothing but the mark. -/
theorem sweptId
    (swept : memory' block = HeapCluster.sweptId memory block)
    (contents : ∀ address, block < address →
      address < block + HeapBlock.words memory block →
        memory' address = memory address) :
    SameButMark memory memory' block := by
  have marks : SameButMark memory
      (if isEvent memory block then memory
        else HeapBlock.markDead memory block) block := by
    split
    · exact refl
    · exact markDead memory block
  have same : memory' block = (if isEvent memory block then memory
      else HeapBlock.markDead memory block) block := by
    rw [swept, HeapCluster.sweptId]
    split <;> rfl
  obtain ⟨_, sameFlags, sameSize⟩ := fields_congr same
  exact {
    type := by rw [dataTypeCode, same]; exact marks.type
    size := sameSize.trans marks.size
    flags := by rw [sameFlags]; exact marks.flags
    contents }

end SameButMark

/-- What an operation on one cluster does to the rest of memory: nothing. -/
structure Local (memory memory' : Memory) (cluster : Nat) : Prop where
  outside : ∀ address,
    address < cluster ∨ payloadEnd memory cluster ≤ address →
      memory' address = memory address
  stop : payloadEnd memory' cluster = payloadEnd memory cluster

namespace HeapCluster.WellFormed

variable {memory memory' : Memory} {cluster : Nat} {blocks : List Nat}

/-- The invariant reads only the words of the cluster. -/
theorem congr
    (wellFormed : WellFormed memory cluster blocks)
    (same : ∀ address, cluster ≤ address →
      address < payloadEnd memory cluster → memory' address = memory address) :
    WellFormed memory' cluster blocks := by
  have span := wellFormed.tiling.span
  have keepsId (block : Nat) (member : block ∈ blocks) :
      memory' block = memory block := by
    have := wellFormed.place member
    exact same block (by omega) (by omega)
  have sameEnd : payloadEnd memory' cluster = payloadEnd memory cluster :=
    same (cluster + 7) (by omega) (by omega)
  have sameFree := freeOf_congr keepsId
  exact {
    start := (same (cluster + 6) (by omega) (by omega)).trans wellFormed.start
    small := by rw [sameEnd]; exact wellFormed.small
    tiling := by rw [sameEnd]; exact wellFormed.tiling.congr keepsId
    linked := by
      rw [sameFree]
      refine wellFormed.linked.congr ?_ ?_
      · intro node member
        rw [List.dropLast_concat, head_freeList] at member
        rcases List.mem_cons.mp member with rfl | free
        · exact same _ (by omega) (by omega)
        · have := mem_freeOf_place wellFormed.tiling free
          exact same _ (by omega) (by omega)
      · intro node member
        rw [List.cons_append, List.tail_cons, tail_freeList] at member
        rcases List.mem_append.mp member with free | isTail
        · have := mem_freeOf_place wellFormed.tiling free
          exact same _ (by omega) (by omega)
        · rw [List.mem_singleton.mp isTail]
          exact same _ (by omega) (by omega)
    ended := (same (cluster + 4) (by omega) (by omega)).trans wellFormed.ended
    pinned := by
      intro block member
      rw [sameFree] at member
      rw [(fields_congr (keepsId block (mem_freeOf.mp member).1)).2.1]
      exact wellFormed.pinned block member }

theorem hasBlocks (wellFormed : WellFormed memory cluster blocks) :
    HasBlocks memory cluster blocks := by
  rw [HasBlocks, wellFormed.start]
  exact wellFormed.tiling

/-- The blocks of a well-formed cluster are the ones that tile its payload. -/
theorem hasBlocks_unique
    {other : List Nat}
    (wellFormed : WellFormed memory cluster blocks)
    (has : HasBlocks memory cluster other) :
    other = blocks :=
  Tiling.unique has wellFormed.hasBlocks

theorem allocated_iff {block : Nat}
    (wellFormed : WellFormed memory cluster blocks) :
    Allocated memory cluster block ↔
      block ∈ blocks ∧ isFree memory block = false := by
  constructor
  · rintro ⟨used, other, has, member⟩
    rw [wellFormed.hasBlocks_unique has] at member
    exact ⟨member, used⟩
  · rintro ⟨member, used⟩
    exact ⟨used, blocks, wellFormed.hasBlocks, member⟩

end HeapCluster.WellFormed

/-! ## Operations on one cluster of a heap -/

namespace HeapWellFormed

variable {heap : Heap} {memory : Memory} {cluster : Nat}

/-- Two clusters of a heap do not overlap. -/
theorem apart
    (wellFormed : HeapWellFormed heap)
    {left right : Nat}
    (leftMember : left ∈ heap.clusters)
    (rightMember : right ∈ heap.clusters)
    (different : left ≠ right) :
    payloadEnd heap.memory left ≤ right ∨
      payloadEnd heap.memory right ≤ left := by
  have : Std.Symm fun left right : Nat =>
      payloadEnd heap.memory left ≤ right ∨
        payloadEnd heap.memory right ≤ left := ⟨fun _ _ => Or.symm⟩
  exact wellFormed.separate.forall leftMember rightMember different

/-- Words of one cluster are untouched by an operation on another. -/
theorem elsewhere
    (wellFormed : HeapWellFormed heap)
    (isLocal : Local heap.memory memory cluster)
    (member : cluster ∈ heap.clusters)
    {other : Nat}
    (otherMember : other ∈ heap.clusters)
    (different : other ≠ cluster)
    {address : Nat}
    (lower : other ≤ address)
    (upper : address < payloadEnd heap.memory other) :
    memory address = heap.memory address := by
  have := wellFormed.apart otherMember member different
  exact isLocal.outside address (by omega)

/-- Blocks in use in one cluster are unaltered by an operation on another. -/
theorem keepsOther
    (wellFormed : HeapWellFormed heap)
    (isLocal : Local heap.memory memory cluster)
    (member : cluster ∈ heap.clusters)
    {other block : Nat}
    (otherMember : other ∈ heap.clusters)
    (different : other ≠ cluster)
    (allocated : Allocated heap.memory other block) :
    Allocated memory other block ∧ Unaltered heap.memory memory block := by
  obtain ⟨blocks, isWellFormed⟩ := wellFormed.clusters other otherMember
  have same {address : Nat} (lower : other ≤ address)
      (upper : address < payloadEnd heap.memory other) :=
    wellFormed.elsewhere isLocal member otherMember different lower upper
  obtain ⟨isBlock, used⟩ := isWellFormed.allocated_iff.mp allocated
  have place := isWellFormed.place isBlock
  refine ⟨(isWellFormed.congr fun _ => same).allocated_iff.mpr
    ⟨isBlock, ?_⟩, ?_⟩
  · rw [isFree_congr (same (by omega) (by omega)), used]
  · intro address lower upper
    exact same (by omega) (by omega)

/-- An operation that keeps its own cluster well formed keeps the heap so. -/
theorem update
    (wellFormed : HeapWellFormed heap)
    (isLocal : Local heap.memory memory cluster)
    (member : cluster ∈ heap.clusters)
    {blocks : List Nat}
    (own : WellFormed memory cluster blocks) :
    HeapWellFormed ⟨memory, heap.clusters⟩ where
  clusters := by
    intro other otherMember
    by_cases different : other = cluster
    · exact ⟨blocks, different ▸ own⟩
    · obtain ⟨others, isWellFormed⟩ := wellFormed.clusters other otherMember
      exact ⟨others, isWellFormed.congr fun address =>
        wellFormed.elsewhere isLocal member otherMember different⟩
  separate := by
    have sameEnd (other : Nat) (otherMember : other ∈ heap.clusters) :
        payloadEnd memory other = payloadEnd heap.memory other := by
      by_cases different : other = cluster
      · rw [different]
        exact isLocal.stop
      · obtain ⟨others, isWellFormed⟩ := wellFormed.clusters other otherMember
        have := isWellFormed.tiling.start_le_stop
        exact wellFormed.elsewhere isLocal member otherMember different
          (by omega) (by omega)
    refine wellFormed.separate.imp_of_mem ?_
    intro left right leftMember rightMember apart
    rwa [sameEnd left leftMember, sameEnd right rightMember]

end HeapWellFormed

/-! ## Marks -/

/-- Marking blocks in use changes nothing but marks. -/
theorem applyMarks_spec
    {memory : Memory}
    {cluster : Nat}
    {blocks : List Nat}
    (wellFormed : WellFormed memory cluster blocks)
    (marks : List (Nat × Bool))
    (allocated : ∀ mark ∈ marks, mark.1 ∈ blocks ∧
      isFree memory mark.1 = false) :
    (∀ block ∈ blocks,
      SameButMark memory (applyMarks memory marks) block) ∧
      (∀ address, address ∉ blocks →
        applyMarks memory marks address = memory address) ∧
      ∀ block ∈ freeOf memory blocks,
        applyMarks memory marks block = memory block := by
  suffices general : ∀ current : Memory,
      (∀ block ∈ blocks, SameButMark memory current block) →
      (∀ address, address ∉ blocks → current address = memory address) →
      (∀ block ∈ freeOf memory blocks, current block = memory block) →
      (∀ block ∈ blocks,
        SameButMark memory (applyMarks current marks) block) ∧
      (∀ address, address ∉ blocks →
        applyMarks current marks address = memory address) ∧
      ∀ block ∈ freeOf memory blocks,
        applyMarks current marks block = memory block by
    exact general memory (fun _ _ => SameButMark.refl) (fun _ _ => rfl)
      fun _ _ => rfl
  induction marks with
  | nil => exact fun _ same outside free => ⟨same, outside, free⟩
  | cons mark rest inductionHypothesis =>
      intro current same outside free
      obtain ⟨marked, alive⟩ := mark
      obtain ⟨isBlock, used⟩ := allocated (marked, alive) (by simp)
      have other (address : Nat) (different : address ≠ marked) :
          (if alive then markAlive current marked
            else markDead current marked) address = current address := by
        split
        · exact setFlags_other _ _ _ _ different
        · exact resetFlags_other _ _ _ _ different
      refine inductionHypothesis
        (fun mark member => allocated mark (by simp [member])) _ ?_ ?_ ?_
      · intro block member
        by_cases isMarked : block = marked
        · rw [isMarked]
          refine (same marked isBlock).trans ?_
          split
          · exact SameButMark.markAlive current marked
          · exact SameButMark.markDead current marked
        · have notInside (address : Nat) (lower : block ≤ address)
              (upper : address < block + HeapBlock.words memory block) :
              address ≠ marked := by
            have := wellFormed.tiling.disjoint member isBlock isMarked
            have := wellFormed.place isBlock
            omega
          have place := wellFormed.place member
          have sameId := other block isMarked
          obtain ⟨_, sameFlags, sameSize⟩ := fields_congr sameId
          have before := same block member
          exact {
            type := by rw [dataTypeCode, sameId]; exact before.type
            size := sameSize.trans before.size
            flags := by rw [sameFlags]; exact before.flags
            contents := fun address lower upper =>
              (other address (notInside address (by omega) upper)).trans
                (before.contents address lower upper) }
      · intro address notBlock
        rw [other address (fun equal => notBlock (equal ▸ isBlock))]
        exact outside address notBlock
      · intro block isFreeBlock
        rw [other block ?_]
        · exact free block isFreeBlock
        · rintro rfl
          simp [(mem_freeOf.mp isFreeBlock).2] at used

/-- A cluster whose blocks in use were marked is ready for the sweep. -/
theorem laid_applyMarks
    {memory : Memory}
    {cluster : Nat}
    {blocks : List Nat}
    (wellFormed : WellFormed memory cluster blocks)
    (marks : List (Nat × Bool))
    (allocated : ∀ mark ∈ marks, Allocated memory cluster mark.1) :
    Laid (applyMarks memory marks) cluster blocks ∧
      payloadEnd (applyMarks memory marks) cluster =
        payloadEnd memory cluster := by
  obtain ⟨same, outside, free⟩ := applyMarks_spec wellFormed marks
    fun mark member => wellFormed.allocated_iff.mp (allocated mark member)
  have notBlock (address : Nat) (below : address < cluster + 8) :
      address ∉ blocks := by
    intro member
    have := wellFormed.place member
    omega
  have sameEnd : payloadEnd (applyMarks memory marks) cluster =
      payloadEnd memory cluster := outside _ (notBlock _ (by omega))
  refine ⟨{
    start := (outside _ (notBlock _ (by omega))).trans wellFormed.start
    small := by rw [sameEnd]; exact wellFormed.small
    tiling := by
      rw [sameEnd]
      exact Tiling.congr wellFormed.tiling
        fun block member => (same block member).words
    unmarked := ?_ }, sameEnd⟩
  intro block member
  obtain ⟨isBlock, isFreeNow⟩ := mem_freeOf.mp member
  have isFreeBlock : block ∈ freeOf memory blocks := by
    refine mem_freeOf.mpr ⟨isBlock, ?_⟩
    rw [← (same block isBlock).isFree, isFreeNow]
  have pinned := wellFormed.pinned block isFreeBlock
  rw [isAlive, isFlagSet, (fields_congr (free block isFreeBlock)).2.1, pinned]
  rfl

/-! ## The operations on a heap -/

section Operations

variable {heap : Heap} {cluster : Nat}

/-- An operation on one cluster: what memory becomes, with the heap still well
formed and the other clusters untouched. -/
structure Operates (heap : Heap) (cluster : Nat) (memory : Memory) : Prop where
  isLocal : Local heap.memory memory cluster
  wellFormed : HeapWellFormed ⟨memory, heap.clusters⟩

/-- An extraction on a heap returns: nothing changes when it fails, and a block
of the requested length, apart from all others, is in use when it succeeds. -/
theorem extractBlocks_heap
    (wellFormed : HeapWellFormed heap)
    (member : cluster ∈ heap.clusters)
    {kind : DataType}
    (notFree : kind ≠ .freeBlock)
    (flags : Nat)
    {length : Nat}
    (positive : 1 ≤ length) :
    ∃ memory block,
      extractBlocks heap.memory cluster kind.code flags length =
        some (memory, block) ∧
      Operates heap cluster memory ∧
      (block = 0 → memory = heap.memory) ∧
      (block ≠ 0 → Allocated memory cluster block ∧
        dataSize memory block = length ∧ dataType memory block = some kind ∧
        ∀ other, Allocated heap.memory cluster other →
          Allocated memory cluster other ∧
            Unaltered heap.memory memory other ∧
            (other + words heap.memory other ≤ block ∨
              block + 3 * length ≤ other)) := by
  obtain ⟨blocks, own⟩ := wellFormed.clusters cluster member
  rcases extractBlocks_spec own notFree flags positive with
    ⟨fails, _⟩ | ⟨memory, block, blocks', nonzero, returns, extracted⟩
  · refine ⟨heap.memory, 0, fails, ⟨⟨fun _ _ => rfl, rfl⟩, wellFormed⟩,
      fun _ => rfl, fun nonzero => absurd rfl nonzero⟩
  · have isLocal : Local heap.memory memory cluster :=
      ⟨extracted.preserves.outside, extracted.preserves.stop⟩
    refine ⟨memory, block, returns,
      ⟨isLocal, wellFormed.update isLocal member extracted.wellFormed⟩,
      fun isZero => absurd isZero nonzero, fun _ => ⟨?_, extracted.size,
        extracted.type, ?_⟩⟩
    · exact extracted.wellFormed.allocated_iff.mpr
        ⟨extracted.member, by simp [isFree, extracted.type, notFree]⟩
    · intro other allocated
      obtain ⟨isBlock, used⟩ := own.allocated_iff.mp allocated
      obtain ⟨stays, unaltered⟩ :=
        extracted.preserves.used other isBlock used (by simp)
      have place := own.place isBlock
      have sameId := unaltered other (Nat.le_refl _) (by omega)
      exact ⟨extracted.wellFormed.allocated_iff.mpr
        ⟨stays, by rw [isFree_congr sameId, used]⟩, unaltered,
        extracted.separate other isBlock used⟩

/-- Marking and sweeping a cluster of a heap returns, and blocks marked alive
differ in the mark at most. -/
theorem recoverFromGC_heap
    (wellFormed : HeapWellFormed heap)
    (member : cluster ∈ heap.clusters)
    {marks : List (Nat × Bool)}
    (allocated : ∀ mark ∈ marks, Allocated heap.memory cluster mark.1) :
    ∃ memory,
      recoverFromGC (applyMarks heap.memory marks) cluster = some memory ∧
      Operates heap cluster memory ∧
      (∀ block, Allocated heap.memory cluster block →
        isAlive (applyMarks heap.memory marks) block = true →
        Allocated memory cluster block ∧
          SameButMark heap.memory memory block) ∧
      ∀ block, Allocated memory cluster block →
        Allocated heap.memory cluster block ∧
          isAlive (applyMarks heap.memory marks) block = true := by
  obtain ⟨blocks, own⟩ := wellFormed.clusters cluster member
  obtain ⟨laid, sameEnd⟩ := laid_applyMarks own marks allocated
  obtain ⟨same, outsideMarks, _⟩ := applyMarks_spec own marks
    fun mark isMark => own.allocated_iff.mp (allocated mark isMark)
  obtain ⟨memory, blocks', returns, own', swept, sweptEnd, outside⟩ :=
    recoverFromGC_spec laid
  have isLocal : Local heap.memory memory cluster := by
    refine ⟨fun address away => ?_, sweptEnd.trans sameEnd⟩
    rw [sameEnd] at outside
    rw [outside address away]
    refine outsideMarks address fun isBlock => ?_
    have := own.place isBlock
    omega
  have keeps (block : Nat) (isBlock : block ∈ blocks)
      (alive : isAlive (applyMarks heap.memory marks) block = true) :
      block ∈ blocks' ∧ SameButMark heap.memory memory block := by
    obtain ⟨stays, sweptIs, contents⟩ := swept.alive block isBlock alive
    exact ⟨stays, (same block isBlock).trans
      (SameButMark.sweptId sweptIs contents)⟩
  refine ⟨memory, returns,
    ⟨isLocal, wellFormed.update isLocal member own'⟩, ?_, ?_⟩
  · intro block isAllocated alive
    obtain ⟨isBlock, used⟩ := own.allocated_iff.mp isAllocated
    obtain ⟨stays, sameBlock⟩ := keeps block isBlock alive
    exact ⟨own'.allocated_iff.mpr ⟨stays, by rw [sameBlock.isFree, used]⟩,
      sameBlock⟩
  · intro block isAllocated
    obtain ⟨isBlock', used'⟩ := own'.allocated_iff.mp isAllocated
    obtain ⟨isBlock, alive⟩ := swept.used block isBlock' used'
    obtain ⟨_, sameBlock⟩ := keeps block isBlock alive
    rw [sameBlock.isFree] at used'
    exact ⟨own.allocated_iff.mpr ⟨isBlock, used'⟩, alive⟩

/-- Releasing a run of blocks returns, and the other blocks in use are
unaltered. -/
theorem insertInOrder_heap
    (wellFormed : HeapWellFormed heap)
    (member : cluster ∈ heap.clusters)
    {node size : Nat}
    {run : List Nat}
    (released : ReleasedRun heap.memory cluster node size run) :
    ∃ memory block,
      insertInOrder heap.memory cluster node size = some (memory, block) ∧
      Operates heap cluster memory ∧
      ∀ other, Allocated heap.memory cluster other → other ∉ run →
        Allocated memory cluster other ∧
          Unaltered heap.memory memory other := by
  obtain ⟨blocks, own⟩ := wellFormed.clusters cluster member
  obtain ⟨nonempty, used, tiled, before, after, has⟩ := released
  obtain rfl := own.hasBlocks_unique has
  obtain ⟨lefts, left, right, rights, around⟩ :=
    exists_around heap.memory cluster before after
  have tiling := own.tiling
  obtain ⟨last, tiling', tilingAfter⟩ := Tiling.append_iff.mp tiling
  obtain ⟨first, tilingBefore, tilingRun⟩ := Tiling.append_iff.mp tiling'
  have firstIs : first = node ∧ last = node + 3 * size := by
    cases run with
    | nil => exact absurd rfl nonempty
    | cons block rest =>
        obtain ⟨rfl, _, tail⟩ := tilingRun
        obtain ⟨same, _, tail'⟩ := tiled
        subst same
        exact ⟨rfl, tail.stop_unique tail'⟩
  obtain ⟨rfl, rfl⟩ := firstIs
  have positive : 1 ≤ size := by
    cases run with
    | nil => exact absurd rfl nonempty
    | cons block rest =>
        obtain ⟨rfl, positive, tail⟩ := tilingRun
        have := tail.start_le_stop
        simp only [words] at this positive
        omega
  have surroundings :=
    own.surroundings around tilingBefore tilingRun tilingAfter
  have pair : LinkedPair (next heap.memory) (prev heap.memory) left right := by
    have noneFree : freeOf heap.memory run = [] :=
      List.filter_eq_nil_iff.mpr fun block isRun => by simp [used block isRun]
    have linked := own.linked
    rw [freeOf_append, freeOf_append, noneFree, List.append_nil,
      head_freeList, tail_freeList, ← List.cons_append, around.leftNodes,
      List.append_assoc, around.rightNodes] at linked
    have linked' : Linked (next heap.memory) (prev heap.memory)
        (lefts ++ left :: right :: rights) := by simpa using linked
    exact linked'.pair
  obtain ⟨memory, block, stop, before', after', returns, inserted⟩ :=
    insertInOrder_spec surroundings pair rfl positive
  obtain ⟨lefts', left', right', rights', wide, writes⟩ := inserted.writes
  have placeWide := wide.place
  have isLocal : Local heap.memory memory cluster := by
    refine ⟨fun address away => ?_, ?_⟩
    · exact writes.keepsOutside wide.around wide.tilingBefore wide.span
        wide.tilingAfter away (by omega)
    · exact writes (cluster + 7) (by omega) (by omega) (by omega)
  refine ⟨memory, block, returns,
    ⟨isLocal, wellFormed.update isLocal member inserted.wellFormed⟩, ?_⟩
  intro other allocated notReleased
  obtain ⟨isBlock, otherUsed⟩ := own.allocated_iff.mp allocated
  have stays : other ∈ before' ++ after' := by
    have isOutside : other ∈ before ∨ other ∈ after := by
      simp only [List.mem_append] at isBlock
      tauto
    rcases isOutside with isBefore | isAfter
    · rcases inserted.mergedBefore with ⟨rfl, _⟩ | ⟨rfl, free, _⟩
      · simp [isBefore]
      · rcases List.mem_append.mp isBefore with isBefore | isLeft
        · simp [isBefore]
        · rw [List.mem_singleton.mp isLeft, free] at otherUsed
          exact absurd otherUsed (by simp)
    · rcases inserted.mergedAfter with ⟨rfl, _⟩ | ⟨rfl, free, _⟩
      · simp [isAfter]
      · rcases List.mem_cons.mp isAfter with isRight | isAfter
        · rw [isRight, free] at otherUsed
          exact absurd otherUsed (by simp)
        · simp [isAfter]
  have unaltered : Unaltered heap.memory memory other :=
    fun address lower upper =>
      writes.keepsUsed wide.around wide.tilingBefore wide.span
        wide.tilingAfter stays otherUsed ⟨lower, upper⟩
  have place := own.place isBlock
  have sameId := unaltered other (Nat.le_refl _) (by omega)
  refine ⟨inserted.wellFormed.allocated_iff.mpr ⟨?_, ?_⟩, unaltered⟩
  · simp only [List.mem_append] at stays ⊢
    tauto
  · rw [isFree_congr sameId, otherUsed]

/-- A new cluster on erased memory that no cluster uses joins the heap. -/
theorem heapClusterInitialize_heap
    (wellFormed : HeapWellFormed heap)
    {size blockSize : Nat}
    (fits : size ≤ c_HeapClusterSize)
    (positive : 1 ≤ blockSize)
    (erased : ∀ address, cluster ≤ address →
      address < cluster + 8 + 3 * payloadBlocks size →
        heap.memory address = 0)
    (separate : ∀ other ∈ heap.clusters,
      payloadEnd heap.memory other ≤ cluster ∨
        cluster + 8 + 3 * payloadBlocks size ≤ other) :
    ∃ memory,
      heapClusterInitialize heap.memory cluster size blockSize =
        some memory ∧
      HeapWellFormed ⟨memory, heap.clusters ++ [cluster]⟩ ∧
      ∀ other ∈ heap.clusters, ∀ block,
        Allocated heap.memory other block →
          Allocated memory other block ∧
            Unaltered heap.memory memory block := by
  obtain ⟨memory, blocks, returns, own, stop, _, outside⟩ :=
    heapClusterInitialize_spec fits positive erased
  have same (other : Nat) (member : other ∈ heap.clusters) (address : Nat)
      (lower : other ≤ address)
      (upper : address < payloadEnd heap.memory other) :
      memory address = heap.memory address := by
    have := separate other member
    exact outside address (by omega)
  have kept (other : Nat) (member : other ∈ heap.clusters) :
      ∃ others, WellFormed heap.memory other others ∧
        WellFormed memory other others := by
    obtain ⟨others, isWellFormed⟩ := wellFormed.clusters other member
    exact ⟨others, isWellFormed, isWellFormed.congr (same other member)⟩
  have sameEnd (other : Nat) (member : other ∈ heap.clusters) :
      payloadEnd memory other = payloadEnd heap.memory other := by
    obtain ⟨others, isWellFormed, _⟩ := kept other member
    have := isWellFormed.tiling.start_le_stop
    exact same other member _ (by omega) (by omega)
  refine ⟨memory, returns, ⟨?_, ?_⟩, ?_⟩
  · intro other member
    rcases List.mem_append.mp member with isOld | isNew
    · obtain ⟨others, _, isWellFormed⟩ := kept other isOld
      exact ⟨others, isWellFormed⟩
    · rw [List.mem_singleton.mp isNew]
      exact ⟨blocks, own⟩
  · refine List.pairwise_append.mpr ⟨?_, List.pairwise_singleton _ _, ?_⟩
    · refine wellFormed.separate.imp_of_mem ?_
      intro left right leftMember rightMember apart
      rwa [sameEnd left leftMember, sameEnd right rightMember]
    · intro other member new isNew
      simp only [List.mem_singleton.mp isNew, sameEnd other member, stop]
      exact separate other member
  · intro other member block allocated
    obtain ⟨others, before, now⟩ := kept other member
    obtain ⟨isBlock, used⟩ := before.allocated_iff.mp allocated
    have place := before.place isBlock
    refine ⟨now.allocated_iff.mpr ⟨isBlock, ?_⟩, ?_⟩
    · rw [isFree_congr (same other member block (by omega) (by omega)), used]
    · intro address lower upper
      exact same other member address (by omega) (by omega)

end Operations

/-- Every operation keeps the invariant of the heap. -/
theorem HeapStep.wellFormed
    {heap heap' : Heap}
    (step : HeapStep heap heap')
    (wellFormed : HeapWellFormed heap) :
    HeapWellFormed heap' := by
  cases step with
  | create _ fits positive erased separate returns =>
      obtain ⟨_, returns', kept, _⟩ :=
        heapClusterInitialize_heap wellFormed fits positive erased separate
      rw [returns] at returns'
      obtain rfl := Option.some.inj returns'
      exact kept
  | extract member notFree positive returns =>
      obtain ⟨_, _, returns', operates, _⟩ :=
        extractBlocks_heap wellFormed member notFree _ positive
      rw [returns] at returns'
      obtain ⟨rfl, rfl⟩ := Prod.mk.inj (Option.some.inj returns')
      exact operates.wellFormed
  | recover member allocated returns =>
      obtain ⟨_, returns', operates, _⟩ :=
        recoverFromGC_heap wellFormed member allocated
      rw [returns] at returns'
      obtain rfl := Option.some.inj returns'
      exact operates.wellFormed
  | insert member released returns =>
      obtain ⟨_, _, returns', operates, _⟩ :=
        insertInOrder_heap wellFormed member released
      rw [returns] at returns'
      obtain ⟨rfl, rfl⟩ := Prod.mk.inj (Option.some.inj returns')
      exact operates.wellFormed

theorem HeapReachable.wellFormed {heap : Heap} (reachable : HeapReachable heap) :
    HeapWellFormed heap := by
  refine Reachable.invariant ?_ ?_ reachable
  · intro start noClusters
    exact ⟨by simp [noClusters], by simp [noClusters]⟩
  · intro state later _ holds step
    exact step.wellFormed holds

/-! ## What holds of every heap that is reached -/

/-- Blocks in use anywhere in a heap stay in use and are unaltered, except the
ones that are given up. -/
def KeepsUsed (heap : Heap) (memory : Memory) (givenUp : Nat → Prop) : Prop :=
  ∀ cluster ∈ heap.clusters, ∀ block, Allocated heap.memory cluster block →
    ¬ givenUp block →
      Allocated memory cluster block ∧ Unaltered heap.memory memory block

/-- Every cluster that is initialized on erased memory, where no other cluster
is, leaves the blocks of the others alone. -/
def CreatesSafely (heap : Heap) : Prop :=
  ∀ cluster size blockSize,
    headerBytes < size → size ≤ c_HeapClusterSize → 1 ≤ blockSize →
    (∀ address, cluster ≤ address →
      address < cluster + 8 + 3 * payloadBlocks size →
        heap.memory address = 0) →
    (∀ other ∈ heap.clusters,
      payloadEnd heap.memory other ≤ cluster ∨
        cluster + 8 + 3 * payloadBlocks size ≤ other) →
    ∃ memory,
      heapClusterInitialize heap.memory cluster size blockSize = some memory ∧
      KeepsUsed heap memory fun _ => False

/-- Every extraction returns, and a block it hands out is exactly as long as
requested and apart from every other block in use. -/
def ExtractsSafely (heap : Heap) : Prop :=
  ∀ cluster ∈ heap.clusters, ∀ (kind : DataType) (flags length : Nat),
    kind ≠ .freeBlock → 1 ≤ length →
    ∃ memory block,
      extractBlocks heap.memory cluster kind.code flags length =
        some (memory, block) ∧
      KeepsUsed heap memory (fun _ => False) ∧
      (block ≠ 0 → Allocated memory cluster block ∧
        dataSize memory block = length ∧
        ∀ other ∈ heap.clusters, ∀ used, Allocated heap.memory other used →
          used + words heap.memory used ≤ block ∨
            block + words memory block ≤ used)

/-- Every sweep returns; blocks marked alive only lose marks, and no other
block of the cluster stays in use. -/
def RecoversSafely (heap : Heap) : Prop :=
  ∀ cluster ∈ heap.clusters, ∀ marks : List (Nat × Bool),
    (∀ mark ∈ marks, Allocated heap.memory cluster mark.1) →
    ∃ memory,
      recoverFromGC (applyMarks heap.memory marks) cluster = some memory ∧
      (∀ other ∈ heap.clusters, other ≠ cluster → ∀ block,
        Allocated heap.memory other block →
          Allocated memory other block ∧
            Unaltered heap.memory memory block) ∧
      ∀ block,
        (Allocated memory cluster block ↔
          Allocated heap.memory cluster block ∧
            isAlive (applyMarks heap.memory marks) block = true) ∧
        (Allocated memory cluster block →
          SameButMark heap.memory memory block)

/-- Every release of a run of blocks returns and leaves the others alone. -/
def InsertsSafely (heap : Heap) : Prop :=
  ∀ cluster ∈ heap.clusters, ∀ node size run,
    ReleasedRun heap.memory cluster node size run →
    ∃ memory block,
      insertInOrder heap.memory cluster node size = some (memory, block) ∧
      KeepsUsed heap memory (· ∈ run)

/-- In every heap that is reached, the blocks of each cluster tile its payload
exactly, its free list links exactly the free blocks in address order, and
every further operation returns, hands out blocks of exactly the requested
length and alters no block in use. -/
theorem heapCluster_reachable
    (heap : Heap)
    (reachable : HeapReachable heap) :
    (∀ cluster ∈ heap.clusters, ∃ blocks,
        WellFormed heap.memory cluster blocks ∧
        (freeOf heap.memory blocks).Pairwise (· < ·)) ∧
      CreatesSafely heap ∧ ExtractsSafely heap ∧ RecoversSafely heap ∧
        InsertsSafely heap := by
  have wellFormed := reachable.wellFormed
  refine ⟨?_, ?_, ?_, ?_, ?_⟩
  · intro cluster member
    obtain ⟨blocks, own⟩ := wellFormed.clusters cluster member
    exact ⟨blocks, own, freeOf_sorted own.tiling⟩
  · intro cluster size blockSize _ fits positive erased separate
    obtain ⟨memory, returns, _, keeps⟩ :=
      heapClusterInitialize_heap wellFormed fits positive erased separate
    exact ⟨memory, returns,
      fun other otherMember used allocated _ =>
        keeps other otherMember used allocated⟩
  · intro cluster member kind flags length notFree positive
    obtain ⟨memory, block, returns, operates, fails, succeeds⟩ :=
      extractBlocks_heap wellFormed member notFree flags positive
    have keeps : KeepsUsed heap memory fun _ => False := by
      intro other otherMember used allocated _
      by_cases different : other = cluster
      · subst different
        by_cases isZero : block = 0
        · rw [fails isZero]
          exact ⟨allocated, fun _ _ _ => rfl⟩
        · obtain ⟨stays, unaltered, _⟩ :=
            (succeeds isZero).2.2.2 used allocated
          exact ⟨stays, unaltered⟩
      · exact wellFormed.keepsOther operates.isLocal member otherMember
          different allocated
    refine ⟨memory, block, returns, keeps, fun nonzero => ?_⟩
    obtain ⟨isAllocated, size, _, others⟩ := succeeds nonzero
    refine ⟨isAllocated, size, fun other otherMember used allocated => ?_⟩
    by_cases different : other = cluster
    · subst different
      have sameWords : words memory block = 3 * length := by rw [words, size]
      rw [sameWords]
      exact (others used allocated).2.2
    · obtain ⟨_, own⟩ : ∃ blocks, WellFormed memory cluster blocks :=
        operates.wellFormed.clusters cluster member
      obtain ⟨_, before⟩ := wellFormed.clusters other otherMember
      have place := own.place (own.allocated_iff.mp isAllocated).1
      have placeBefore := before.place (before.allocated_iff.mp allocated).1
      have apart := wellFormed.apart otherMember member different
      have sameEnd := operates.isLocal.stop
      omega
  · intro cluster member marks allocated
    obtain ⟨memory, returns, operates, keeps, only⟩ :=
      recoverFromGC_heap wellFormed member allocated
    refine ⟨memory, returns, ?_, fun block => ⟨⟨only block, ?_⟩, ?_⟩⟩
    · intro other otherMember different block isAllocated
      exact wellFormed.keepsOther operates.isLocal member otherMember
        different isAllocated
    · rintro ⟨isAllocated, alive⟩
      exact (keeps block isAllocated alive).1
    · intro isAllocated
      obtain ⟨before, alive⟩ := only block isAllocated
      exact (keeps block before alive).2
  · intro cluster member node size run released
    obtain ⟨memory, block, returns, operates, keeps⟩ :=
      insertInOrder_heap wellFormed member released
    refine ⟨memory, block, returns, ?_⟩
    intro other otherMember used allocated notReleased
    by_cases different : other = cluster
    · subst different
      exact keeps used allocated notReleased
    · exact wellFormed.keepsOther operates.isLocal member otherMember
        different allocated

/-- A cluster of five heap blocks, initialized on erased memory. -/
theorem heapCluster_reachable_initialized :
    ∃ memory, heapClusterInitialize (fun _ => 0) 100 92 2 = some memory ∧
      CreatesSafely ⟨memory, [100]⟩ ∧ ExtractsSafely ⟨memory, [100]⟩ := by
  have empty : HeapReachable ⟨fun _ => 0, []⟩ := Reachable.start rfl
  have created : ∃ memory,
      heapClusterInitialize (fun _ => 0) 100 92 2 = some memory ∧ _ :=
    heapClusterInitialize_heap empty.wellFormed (by decide) (by decide)
      (fun _ _ _ => rfl) (by simp)
  obtain ⟨memory, returns, _⟩ := created
  have reachable : HeapReachable ⟨memory, [100]⟩ :=
    empty.next (HeapStep.create (by decide) (by decide) (by decide)
      (fun _ _ _ => rfl) (by simp) returns)
  have safely := heapCluster_reachable _ reachable
  exact ⟨memory, returns, safely.2.1, safely.2.2.1⟩

end NanoClr
