import NanoClr.Heap.RecoverFromGC

/-!
# Initializing a cluster

On erased memory there is nothing to salvage, so the scan lays free blocks of
the requested size over the payload, the last one trimmed, and the sweep that
follows builds the free list.
-/

namespace NanoClr

open HeapBlock

namespace HeapCluster

variable {memory : Memory} {cluster : Nat}

/-- Blocks of the payload of a cluster of the given size in bytes. -/
def payloadBlocks (size : Nat) : Nat := (size - headerBytes) / heapBlockBytes

/-- The scan of erased memory: free blocks tile what it has passed, and the
rest is still erased. -/
structure LayingOut (origin : Memory) (cluster stop : Nat) (state : Layout) :
    Prop where
  tiled : ∃ done, HeapTiling state.memory state.block (cluster + 8) done ∧
    ∀ block ∈ done, isAlive state.memory block = false
  erased : ∀ address, state.block ≤ address → address < stop →
    state.memory address = 0
  elsewhere : ∀ address, address < cluster + 8 ∨ stop ≤ address →
    state.memory address = origin address
  inside : state.block ≤ stop
  positive : 1 ≤ state.blockSize

/-- One round of the scan lays out one free block. -/
theorem LayingOut.round
    {origin : Memory}
    {stop : Nat}
    {state : Layout}
    (layingOut : LayingOut origin cluster stop state)
    (aligned : stop % 3 = (cluster + 8) % 3)
    (small : stop ≤ cluster + 8 + 3 * HB_MaxSize)
    (starts : state.block < stop) :
    ∃ later, layOutBlock stop state = .next later ∧
      state.block < later.block ∧ LayingOut origin cluster stop later := by
  obtain ⟨⟨done, tiling, allDead⟩, erased, elsewhere, inside, positive⟩ :=
    layingOut
  have span := tiling.span
  have isZero : state.memory state.block = 0 := erased _ (Nat.le_refl _) starts
  have noWeak : isSurvivingWeakReference state.memory state.block = false := by
    simp [isSurvivingWeakReference, dataType, dataTypeCode, isZero,
      DataType.ofCode, DataType.all]
  have noArray : isSurvivingByteArray state.memory stop state.block =
      false := by
    simp [isSurvivingByteArray, dataType, dataTypeCode, isZero,
      DataType.ofCode, DataType.all]
  generalize sizeIs : (if stop < state.block + 3 * state.blockSize then
    (stop - state.block) / 3 else state.blockSize) = blockSize
  have sizeBounds : 1 ≤ blockSize ∧ state.block + 3 * blockSize ≤ stop := by
    rw [← sizeIs]
    split <;> omega
  have sizeSmall : blockSize % 0x10000 = blockSize := by
    simp only [HB_MaxSize] at small
    exact Nat.mod_eq_of_lt (by omega)
  generalize fixed : setDataId state.memory state.block
    (rawId DataType.freeBlock.code 0 blockSize) = laid
  have sameOther (address : Nat) (different : address ≠ state.block) :
      laid address = state.memory address := by
    rw [← fixed]
    exact setDataId_other _ _ _ _ different
  have laidSize : dataSize laid state.block = blockSize := by
    rw [← fixed, dataSize_setDataId, sizeSmall]
  have laidDead : isAlive laid state.block = false := by
    rw [← fixed, isAlive, isFlagSet, dataFlags_setDataId]
    rfl
  have sameDone (block : Nat) (member : block ∈ done) :
      laid block = state.memory block := by
    have := tiling.place member
    exact sameOther block (by omega)
  refine ⟨⟨laid, state.block + 3 * blockSize, blockSize⟩, ?_, ?_,
    ⟨⟨done ++ [state.block], ?_, ?_⟩, ?_, ?_, sizeBounds.2, sizeBounds.1⟩⟩
  · simp only [layOutBlock, noWeak, noArray]
    rw [if_pos starts]
    simp only [sizeIs, fixed, Bool.false_eq_true, if_false]
  · have := sizeBounds.1
    simp only
    omega
  · refine Tiling.append_iff.mpr ⟨_, tiling.congr sameDone, rfl, ?_, ?_⟩
    · simp only [words, laidSize]
      omega
    · simp only [words, laidSize, Tiling.nil_iff]
  · intro block member
    rcases List.mem_append.mp member with isDone | isBlock
    · have sameFlags := (fields_congr (sameDone block isDone)).2.1
      rw [isAlive, isFlagSet, sameFlags]
      exact allDead block isDone
    · rw [List.mem_singleton.mp isBlock]
      exact laidDead
  · intro address beyond below
    have beyond : state.block + 3 * blockSize ≤ address := beyond
    exact (sameOther address (by omega)).trans
      (erased address (by omega) below)
  · intro address outside
    exact (sameOther address (by omega)).trans (elsewhere address outside)

/-- The header of a new cluster. -/
theorem writeHeader_bounds (memory : Memory) (cluster blocks : Nat) :
    payloadStart (writeHeader memory cluster blocks) cluster = cluster + 8 ∧
      payloadEnd (writeHeader memory cluster blocks) cluster =
        cluster + 8 + 3 * blocks := by
  simp [payloadStart, payloadEnd, writeHeader]

theorem writeHeader_elsewhere
    (memory : Memory)
    (cluster blocks address : Nat)
    (outside : address < cluster ∨ cluster + 8 ≤ address) :
    writeHeader memory cluster blocks address = memory address := by
  simp (disch := omega) only [writeHeader, dblLinkedListInitialize, freeList,
    clearData, setNext, setPrev, Function.update_of_ne]

/-- `HeapCluster_Initialize` on erased memory gives a well-formed cluster. -/
theorem heapClusterInitialize_spec
    {size blockSize : Nat}
    (fits : size ≤ c_HeapClusterSize)
    (positive : 1 ≤ blockSize)
    (erased : ∀ address, cluster ≤ address →
      address < cluster + 8 + 3 * payloadBlocks size → memory address = 0) :
    ∃ memory' blocks,
      heapClusterInitialize memory cluster size blockSize = some memory' ∧
      WellFormed memory' cluster blocks ∧
      payloadEnd memory' cluster = cluster + 8 + 3 * payloadBlocks size ∧
      (∀ block ∈ blocks, isFree memory' block = true) ∧
      ∀ address, address < cluster ∨
        cluster + 8 + 3 * payloadBlocks size ≤ address →
          memory' address = memory address := by
  have small : payloadBlocks size ≤ HB_MaxSize := by
    simp only [payloadBlocks, c_HeapClusterSize, headerBytes, heapBlockBytes,
      HB_MaxSize] at fits ⊢
    omega
  obtain ⟨start, stop⟩ :=
    writeHeader_bounds memory cluster (payloadBlocks size)
  have elsewhere :=
    writeHeader_elsewhere memory cluster (payloadBlocks size)
  generalize headerIs : writeHeader memory cluster (payloadBlocks size) =
    header at start stop elsewhere
  have begins : LayingOut header cluster
      (cluster + 8 + 3 * payloadBlocks size)
      ⟨header, cluster + 8, blockSize⟩ := by
    refine ⟨⟨[], rfl, by simp⟩, ?_, fun _ _ => rfl, ?_, positive⟩
    · intro address beyond below
      have beyond : cluster + 8 ≤ address := beyond
      exact (elsewhere address (by omega)).trans
        (erased address (by omega) below)
    · simp only
      omega
  have inBounds : cluster + 8 + 3 * payloadBlocks size - (cluster + 8) <
      rounds header cluster := by
    simp only [rounds, start, stop]
    omega
  have total := loop_total
    (layOutBlock (cluster + 8 + 3 * payloadBlocks size))
    (LayingOut header cluster (cluster + 8 + 3 * payloadBlocks size))
    (fun state => LayingOut header cluster
      (cluster + 8 + 3 * payloadBlocks size) state ∧
        cluster + 8 + 3 * payloadBlocks size ≤ state.block)
    (fun state => cluster + 8 + 3 * payloadBlocks size - state.block)
    ?_ ?_ begins inBounds
  · obtain ⟨layout, returns, ⟨⟨done, tiling, allDead⟩, _, keeps, inside, _⟩,
      reached⟩ := total
    have atEnd : layout.block = cluster + 8 + 3 * payloadBlocks size := by
      omega
    rw [atEnd] at tiling
    have laidStart : payloadStart layout.memory cluster = cluster + 8 :=
      (keeps (cluster + 6) (by omega)).trans start
    have laidEnd : payloadEnd layout.memory cluster =
        cluster + 8 + 3 * payloadBlocks size :=
      (keeps (cluster + 7) (by omega)).trans stop
    have laid : Laid layout.memory cluster done := {
      start := laidStart
      small := by omega
      tiling := by rw [laidEnd]; exact tiling
      unmarked := fun block member =>
        allDead block (mem_freeOf.mp member).1 }
    obtain ⟨memory', blocks, recovers, wellFormed, swept, sameEnd, outside⟩ :=
      recoverFromGC_spec laid
    refine ⟨memory', blocks, ?_, wellFormed, sameEnd.trans laidEnd, ?_, ?_⟩
    · have blocksIs : (size - headerBytes) / heapBlockBytes =
          payloadBlocks size := rfl
      simp only [heapClusterInitialize, blocksIs, headerIs, start, stop,
        returns, Option.bind_eq_bind, Option.bind_some, recovers]
    · intro block member
      by_contra used
      obtain ⟨isDone, alive⟩ := swept.used block member (by simpa using used)
      simp [allDead block isDone] at alive
    · intro address away
      rw [laidEnd] at outside
      rw [outside address away, keeps address (by omega),
        elsewhere address (by omega)]
  · intro state later holds decides
    by_cases starts : state.block < cluster + 8 + 3 * payloadBlocks size
    · obtain ⟨later', decides', further, kept⟩ :=
        holds.round (by omega) (by omega) starts
      rw [decides] at decides'
      obtain rfl := LoopStep.next.inj decides'
      exact ⟨kept, by omega⟩
    · simp [layOutBlock, starts] at decides
  · intro state result holds decides
    by_cases starts : state.block < cluster + 8 + 3 * payloadBlocks size
    · obtain ⟨later', decides', _⟩ :=
        holds.round (by omega) (by omega) starts
      rw [decides] at decides'
      cases decides'
    · have same : result = state := by
        simpa [layOutBlock, starts] using decides.symm
      rw [same]
      exact ⟨holds, by omega⟩

end HeapCluster

end NanoClr
