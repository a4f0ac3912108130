import NanoClr.Heap.HeapClusterInitialize

/-!
# Salvaging old blocks

The scan of `HeapCluster_Initialize` over memory with arbitrary contents.  It
lays out the payload exactly when none of the blocks it salvages is empty or
reaches past the end.
-/

namespace NanoClr

open HeapBlock

namespace HeapCluster

/-! ## Where the scan comes by -/

section Scan

variable (initial : Memory) (stop blockSize : Nat)

/-- The words the scan passes over at a block. -/
def scanStep (block : Nat) : Nat :=
  if isSurvivingWeakReference initial block ∨
      isSurvivingByteArray initial stop block then
    words initial block
  else if stop < block + 3 * blockSize then
    3 * ((stop - block) / 3)
  else
    3 * blockSize

/-- The blocks the scan comes by, in memory as it was before. -/
inductive Visited (start : Nat) : Nat → Prop
  | start : Visited start start
  | step {block : Nat} :
      Visited start block → block < stop →
        Visited start (block + scanStep initial stop blockSize block)

/-- What is salvaged at a block is not empty and does not reach past the
end. -/
structure SoundAt (block : Nat) : Prop where
  weak : isSurvivingWeakReference initial block →
    block + words initial block ≤ stop
  array : isSurvivingByteArray initial stop block →
    0 < dataSize initial block

/-- A block of the layout: free, or salvaged with its type and size. -/
def LaidOut (final : Memory) (block : Nat) : Prop :=
  dataType final block = some .freeBlock ∨
    isAlive final block ∧ dataType final block = dataType initial block ∧
      words final block = words initial block ∧
      (isSurvivingWeakReference initial block ∨
        isSurvivingByteArray initial stop block)

/-- The blocks from the start to the stop tile it, and each is laid out. -/
def TiledBy (start upTo : Nat) (final : Memory) : Prop :=
  ∃ blocks, Tiling (words final) upTo start blocks ∧
    ∀ block ∈ blocks, LaidOut initial stop final block

/-- The scan terminates and leaves the payload tiled. -/
def ScanTiles (start : Nat) : Prop :=
  ∃ rounds layout,
    loop (layOutBlock stop) rounds ⟨initial, start, blockSize⟩ =
      some layout ∧
      TiledBy initial stop start stop layout.memory

/-- The scan before one of its rounds. -/
structure Scanning (start : Nat) (state : Layout) : Prop where
  tiled : TiledBy initial stop start state.block state.memory
  same : ∀ address, state.block ≤ address →
    state.memory address = initial address
  size : state.block < stop → state.blockSize = blockSize
  inside : state.block ≤ stop
  aligned : state.block % 3 = stop % 3

end Scan

/-! ## One round -/

section Round

variable {initial : Memory} {start stop blockSize : Nat} {state : Layout}

theorem isSurvivingWeakReference_congr
    {memory memory' : Memory}
    {block : Nat}
    (same : ∀ address, block ≤ address → memory' address = memory address) :
    isSurvivingWeakReference memory' block =
      isSurvivingWeakReference memory block := by
  have fields := fields_congr (same block (Nat.le_refl _))
  rw [isSurvivingWeakReference, isSurvivingWeakReference, fields.1,
    fields.2.2, same (block + 10) (by omega), same (block + 4) (by omega)]

theorem isSurvivingByteArray_congr
    {memory memory' : Memory}
    {block : Nat}
    (same : ∀ address, block ≤ address → memory' address = memory address) :
    isSurvivingByteArray memory' stop block =
      isSurvivingByteArray memory stop block := by
  have fields := fields_congr (same block (Nat.le_refl _))
  rw [isSurvivingByteArray, isSurvivingByteArray, arrayBlocks, arrayBlocks,
    words, words, fields.1, fields.2.2, same (block + 3) (by omega),
    same (block + 4) (by omega)]

/-- Salvaging a weak reference keeps its type and size and marks it. -/
theorem salvageWeakReference_spec (memory : Memory) (block : Nat) :
    isAlive (salvageWeakReference memory block) block ∧
      dataType (salvageWeakReference memory block) block =
        dataType memory block ∧
      words (salvageWeakReference memory block) block = words memory block := by
  rw [salvageWeakReference]
  refine ⟨isAlive_markAlive _ _, ?_, ?_⟩
  · rw [markAlive, dataType_setFlags]
    simp [dataType, dataTypeCode, clearData, setNext, setPrev]
  · rw [markAlive, words, dataSize_setFlags]
    simp [words, dataSize, clearData, setNext, setPrev]

theorem salvageWeakReference_other
    {memory : Memory}
    {block address : Nat}
    (outside : address < block ∨ block + 12 ≤ address) :
    salvageWeakReference memory block address = memory address := by
  rw [salvageWeakReference, markAlive, setFlags_other _ _ _ _ (by omega)]
  simp (disch := omega) only [Function.update_of_ne, clearData, setNext,
    setPrev]

/-- Blocks that are laid out stay so while only words behind them change. -/
theorem TiledBy.extend
    {memory memory' : Memory}
    {block upTo : Nat}
    (tiled : TiledBy initial stop start block memory)
    (same : ∀ address, address < block → memory' address = memory address)
    (laidOut : LaidOut initial stop memory' block)
    (length : words memory' block = upTo - block)
    (longer : block < upTo) :
    TiledBy initial stop start upTo memory' := by
  obtain ⟨blocks, tiling, laid⟩ := tiled
  have sameId (done : Nat) (member : done ∈ blocks) :
      memory' done = memory done := by
    have bounds := tiling.bounds member
    exact same done (by omega)
  refine ⟨blocks ++ [block], ?_, ?_⟩
  · refine Tiling.append_iff.mpr ⟨block, ?_, rfl, ?_, ?_⟩
    · apply tiling.congr
      intro done member
      rw [words, words, (fields_congr (sameId done member)).2.2]
    · omega
    · rw [Tiling.nil_iff]
      omega
  · intro done member
    rw [List.mem_append, List.mem_singleton] at member
    cases member with
    | inl member =>
        obtain ⟨type, flags, size⟩ := fields_congr (sameId done member)
        have isLaid := laid done member
        rw [LaidOut, isAlive, isFlagSet, words] at isLaid ⊢
        rw [type, flags, size]
        exact isLaid
    | inr isBlock =>
        subst isBlock
        exact laidOut

/-- What a round at a sound block writes. -/
theorem Scanning.next
    {later : Layout}
    (scanning : Scanning initial stop blockSize start state)
    (sameBefore : ∀ address, address < state.block →
      later.memory address = state.memory address)
    (sameBehind : ∀ address, later.block ≤ address →
      later.memory address = state.memory address)
    (laidOut : LaidOut initial stop later.memory state.block)
    (length : words later.memory state.block = later.block - state.block)
    (longer : state.block < later.block)
    (inside : later.block ≤ stop)
    (aligned : (later.block - state.block) % 3 = 0)
    (size : later.block < stop → later.blockSize = blockSize) :
    Scanning initial stop blockSize start later where
  tiled := scanning.tiled.extend sameBefore laidOut length longer
  same address beyond := by
    rw [sameBehind address beyond]
    exact scanning.same address (by omega)
  size := size
  inside := inside
  aligned := by
    have := scanning.aligned
    omega

/-- A round at a sound block lays out one block more. -/
theorem Scanning.round
    (positive : 1 ≤ blockSize)
    (small : stop ≤ start + 3 * HB_MaxSize)
    (atStart : start ≤ state.block)
    (scanning : Scanning initial stop blockSize start state)
    (starts : state.block < stop)
    (sound : SoundAt initial stop state.block) :
    ∃ later, layOutBlock stop state = .next later ∧
      later.block =
        state.block + scanStep initial stop blockSize state.block ∧
      state.block < later.block ∧
      Scanning initial stop blockSize start later := by
  have size := scanning.size starts
  have aligned := scanning.aligned
  have sameWeak := isSurvivingWeakReference_congr scanning.same
  have sameArray : isSurvivingByteArray state.memory stop state.block =
      isSurvivingByteArray initial stop state.block :=
    isSurvivingByteArray_congr scanning.same
  have fields := fields_congr (scanning.same state.block (Nat.le_refl _))
  have sameWords : words state.memory state.block =
      words initial state.block := by
    rw [words, words, fields.2.2]
  rw [layOutBlock, if_pos starts, sameWeak, sameArray, scanStep]
  by_cases isWeak : isSurvivingWeakReference initial state.block = true
  · obtain ⟨alive, type, length⟩ :=
      salvageWeakReference_spec state.memory state.block
    have isTwelve : words initial state.block = 12 := by
      simp only [isSurvivingWeakReference, decide_eq_true_eq] at isWeak
      rw [words, isWeak.2.1, weakReferenceSize]
    have fits := sound.weak isWeak
    rw [if_pos isWeak, if_pos (.inl isWeak)]
    dsimp only
    rw [length, sameWords, isTwelve]
    refine ⟨_, rfl, rfl, by dsimp only; omega, scanning.next ?_ ?_ ?_ ?_ ?_ ?_ ?_
      fun _ => size⟩
    · exact fun address before => salvageWeakReference_other (.inl before)
    · exact fun address behind => salvageWeakReference_other (.inr behind)
    · refine .inr ⟨alive, ?_, ?_, .inl isWeak⟩
      · rw [type, fields.1]
      · rw [length, sameWords]
    all_goals
      dsimp only
      omega
  · rw [if_neg isWeak]
    by_cases isArray : isSurvivingByteArray initial stop state.block = true
    · have nonempty := sound.array isArray
      have length : words (markAlive state.memory state.block) state.block =
          words initial state.block := by
        rw [← sameWords, words, words, markAlive, dataSize_setFlags]
      have isLength : words initial state.block =
          3 * dataSize initial state.block := rfl
      have fits : state.block + words initial state.block ≤ stop := by
        simp only [isSurvivingByteArray, decide_eq_true_eq] at isArray
        exact isArray.2.2.2.2
      rw [if_pos isArray, if_pos (.inr isArray)]
      dsimp only
      rw [length]
      refine ⟨_, rfl, rfl, by dsimp only; omega, scanning.next ?_ ?_ ?_ ?_ ?_ ?_
        ?_ fun _ => size⟩
      · intro address before
        exact setFlags_other _ _ _ _ (by omega)
      · intro address behind
        exact setFlags_other _ _ _ _ (by dsimp only at behind; omega)
      · refine .inr ⟨isAlive_markAlive _ _, ?_, length, .inr isArray⟩
        rw [← fields.1, markAlive, dataType_setFlags]
      all_goals
        dsimp only
        omega
    · rw [if_neg isArray, if_neg (not_or.mpr ⟨isWeak, isArray⟩), size]
      have other (count address : Nat) (different : address ≠ state.block) :
          setDataId state.memory state.block
            (rawId DataType.freeBlock.code 0 count) address =
              state.memory address := setDataId_other _ _ _ _ different
      have laid (count : Nat) (fits : count < 0x10000) :
          words (setDataId state.memory state.block
            (rawId DataType.freeBlock.code 0 count)) state.block =
              3 * count := by
        rw [words, dataSize_setDataId, Nat.mod_eq_of_lt fits]
      simp only [HB_MaxSize] at small
      by_cases trimmed : stop < state.block + 3 * blockSize
      · rw [if_pos trimmed, if_pos trimmed]
        refine ⟨_, rfl, rfl, by dsimp only; omega, scanning.next ?_ ?_ ?_ ?_ ?_
          ?_ ?_ ?_⟩
        · exact fun address before => other _ address (by omega)
        · exact fun address behind =>
            other _ address (by dsimp only at behind; omega)
        · exact .inl (dataType_setDataId _ _ _ _ _)
        · rw [laid _ (by omega)]
          dsimp only
          omega
        all_goals
          dsimp only
          omega
      · rw [if_neg trimmed, if_neg trimmed]
        refine ⟨_, rfl, rfl, by dsimp only; omega, scanning.next ?_ ?_ ?_ ?_ ?_
          ?_ ?_ fun _ => rfl⟩
        · exact fun address before => other _ address (by omega)
        · exact fun address behind =>
            other _ address (by dsimp only at behind; omega)
        · exact .inl (dataType_setDataId _ _ _ _ _)
        · rw [laid _ (by omega)]
          dsimp only
          omega
        all_goals
          dsimp only
          omega

/-! ## Blocks that are not sound -/

/-- The scan does not leave an empty array. -/
theorem loop_emptyArray
    {memory : Memory}
    {block rounds : Nat}
    (starts : block < stop)
    (isArray : isSurvivingByteArray memory stop block)
    (empty : dataSize memory block = 0) :
    loop (layOutBlock stop) rounds ⟨memory, block, blockSize⟩ = none := by
  induction rounds generalizing memory with
  | zero => rfl
  | succ rounds inductionHypothesis =>
      have notWeak : isSurvivingWeakReference memory block = false := by
        simp only [isSurvivingByteArray, decide_eq_true_eq] at isArray
        simp [isSurvivingWeakReference, isArray.1]
      have sameSize : dataSize (markAlive memory block) block =
          dataSize memory block := dataSize_setFlags _ _ _
      have sameType : dataType (markAlive memory block) block =
          dataType memory block := dataType_setFlags _ _ _
      have third : markAlive memory block (block + 3) = memory (block + 3) :=
        setFlags_other _ _ _ _ (by omega)
      have fourth : markAlive memory block (block + 4) = memory (block + 4) :=
        setFlags_other _ _ _ _ (by omega)
      have decides : layOutBlock stop ⟨memory, block, blockSize⟩ =
          .next ⟨markAlive memory block, block, blockSize⟩ := by
        simp only [layOutBlock, if_pos starts, notWeak, if_pos isArray, words,
          sameSize, empty]
        rfl
      rw [loop_succ_next decides]
      apply inductionHypothesis
      · rw [isSurvivingByteArray, arrayBlocks, words, sameType, sameSize,
          third, fourth]
        exact isArray
      · rw [sameSize, empty]

/-- The scan leaves a gap behind a weak reference that reaches past the
end. -/
theorem not_tiles_crossing
    {rounds : Nat}
    {layout : Layout}
    (scanning : Scanning initial stop blockSize start state)
    (starts : state.block < stop)
    (isWeak : isSurvivingWeakReference initial state.block)
    (crosses : stop < state.block + words initial state.block)
    (returns : loop (layOutBlock stop) rounds state = some layout) :
    ¬ TiledBy initial stop start stop layout.memory := by
  rintro ⟨blocks, whole, _⟩
  obtain ⟨done, tiling, _⟩ := scanning.tiled
  obtain ⟨_, _, length⟩ := salvageWeakReference_spec state.memory state.block
  have sameWords : words state.memory state.block =
      words initial state.block := by
    rw [words, words,
      (fields_congr (scanning.same state.block (Nat.le_refl _))).2.2]
  have decides : layOutBlock stop state =
      .next ⟨salvageWeakReference state.memory state.block,
        state.block + words initial state.block, state.blockSize⟩ := by
    rw [layOutBlock, if_pos starts,
      isSurvivingWeakReference_congr scanning.same, if_pos isWeak]
    dsimp only
    rw [length, sameWords]
  obtain ended | ⟨later, fewer, rfl, goes, returns⟩ := loop_some returns
  · rw [decides] at ended
    cases ended
  · rw [decides] at goes
    cases goes
    obtain ended | ⟨later, _, _, goes, _⟩ := loop_some returns
    · rw [layOutBlock, if_neg (Nat.not_lt.mpr (Nat.le_of_lt crosses))]
        at ended
      cases ended
      have before : Tiling (words (salvageWeakReference state.memory
          state.block)) state.block start done := by
        apply tiling.congr
        intro block member
        have bounds := tiling.bounds member
        rw [words, words, (fields_congr
          (salvageWeakReference_other (.inl (by omega)))).2.2]
      obtain ⟨rest, behind⟩ := before.behind whole scanning.inside
      cases rest with
      | nil =>
          have same : state.block = stop := behind
          omega
      | cons block rest =>
          obtain ⟨rfl, _, behind⟩ := behind
          have := behind.start_le_stop
          rw [length, sameWords] at this
          omega
    · rw [layOutBlock, if_neg (Nat.not_lt.mpr (Nat.le_of_lt crosses))] at goes
      cases goes

/-- A block where a scan that tiles comes by is sound. -/
theorem sound_of_returns
    {rounds : Nat}
    {layout : Layout}
    (scanning : Scanning initial stop blockSize start state)
    (starts : state.block < stop)
    (returns : loop (layOutBlock stop) rounds state = some layout)
    (tiles : TiledBy initial stop start stop layout.memory) :
    SoundAt initial stop state.block where
  weak isWeak := by
    by_contra crosses
    exact not_tiles_crossing scanning starts isWeak (Nat.lt_of_not_le crosses)
      returns tiles
  array isArray := by
    by_contra empty
    have sameSize := (fields_congr
      (scanning.same state.block (Nat.le_refl _))).2.2
    have isStuck : loop (layOutBlock stop) rounds
        ⟨state.memory, state.block, state.blockSize⟩ = none := by
      apply loop_emptyArray starts
      · rw [isSurvivingByteArray_congr scanning.same]
        exact isArray
      · omega
    rw [isStuck] at returns
    cases returns

end Round

/-! ## Exactly the sound payloads are tiled -/

section Payload

variable {initial : Memory} {start stop blockSize : Nat}

theorem Visited.start_le
    {block : Nat}
    (visited : Visited initial stop blockSize start block) :
    start ≤ block := by
  induction visited with
  | start => exact Nat.le_refl _
  | step _ _ inductionHypothesis => omega

theorem scanning_start
    (inside : start ≤ stop)
    (aligned : start % 3 = stop % 3) :
    Scanning initial stop blockSize start ⟨initial, start, blockSize⟩ where
  tiled := ⟨[], rfl, by simp⟩
  same _ _ := rfl
  size _ := rfl
  inside := inside
  aligned := aligned

/-- A scan that returns has come to every block it comes by. -/
theorem scanning_of_visited
    {rounds block : Nat}
    {layout : Layout}
    (positive : 1 ≤ blockSize)
    (small : stop ≤ start + 3 * HB_MaxSize)
    (inside : start ≤ stop)
    (aligned : start % 3 = stop % 3)
    (returns : loop (layOutBlock stop) rounds ⟨initial, start, blockSize⟩ =
      some layout)
    (tiles : TiledBy initial stop start stop layout.memory)
    (visited : Visited initial stop blockSize start block) :
    ∃ state fewer, state.block = block ∧
      Scanning initial stop blockSize start state ∧
      loop (layOutBlock stop) fewer state = some layout := by
  induction visited with
  | start => exact ⟨_, rounds, rfl, scanning_start inside aligned, returns⟩
  | step visited starts inductionHypothesis =>
      obtain ⟨state, fewer, rfl, scanning, returns⟩ := inductionHypothesis
      have sound := sound_of_returns scanning starts returns tiles
      obtain ⟨later, decides, isBlock, _, kept⟩ :=
        scanning.round positive small visited.start_le starts sound
      obtain ended | ⟨other, others, rfl, goes, returns⟩ := loop_some returns
      · rw [decides] at ended
        cases ended
      · rw [decides] at goes
        cases goes
        exact ⟨later, others, isBlock, kept, returns⟩

/-- The scan terminates and tiles the payload exactly when every block it
comes by is sound. -/
theorem scanTiles_iff
    (positive : 1 ≤ blockSize)
    (small : stop ≤ start + 3 * HB_MaxSize)
    (inside : start ≤ stop)
    (aligned : start % 3 = stop % 3) :
    ScanTiles initial stop blockSize start ↔
      ∀ block, Visited initial stop blockSize start block → block < stop →
        SoundAt initial stop block := by
  constructor
  · rintro ⟨rounds, layout, returns, tiles⟩ block visited starts
    obtain ⟨state, fewer, rfl, scanning, returns⟩ :=
      scanning_of_visited positive small inside aligned returns tiles visited
    exact sound_of_returns scanning starts returns tiles
  · intro sound
    have total := loop_total (layOutBlock stop)
      (fun state => Scanning initial stop blockSize start state ∧
        Visited initial stop blockSize start state.block)
      (fun state => TiledBy initial stop start stop state.memory)
      (fun state => stop - state.block)
      ?_ ?_ ⟨scanning_start inside aligned, .start⟩ (Nat.lt_succ_self _)
    · obtain ⟨layout, returns, tiles⟩ := total
      exact ⟨_, layout, returns, tiles⟩
    · rintro state later ⟨scanning, visited⟩ decides
      have starts : state.block < stop := by
        by_contra ended
        rw [layOutBlock, if_neg ended] at decides
        cases decides
      obtain ⟨next, decides', isBlock, further, kept⟩ :=
        scanning.round positive small visited.start_le starts
          (sound state.block visited starts)
      rw [decides] at decides'
      cases decides'
      refine ⟨⟨kept, ?_⟩, by omega⟩
      rw [isBlock]
      exact .step visited starts
    · rintro state result ⟨scanning, visited⟩ decides
      by_cases starts : state.block < stop
      · obtain ⟨next, decides', _⟩ :=
          scanning.round positive small visited.start_le starts
            (sound state.block visited starts)
        rw [decides] at decides'
        cases decides'
      · rw [layOutBlock, if_neg starts] at decides
        cases decides
        have atEnd : state.block = stop := by
          have := scanning.inside
          omega
        have tiled := scanning.tiled
        rwa [atEnd] at tiled

/-- Only the payload matters. -/
theorem soundAt_congr
    {memory : Memory}
    {block : Nat}
    (same : ∀ address, block ≤ address → memory address = initial address) :
    SoundAt memory stop block ↔ SoundAt initial stop block := by
  have size := (fields_congr (same block (Nat.le_refl _))).2.2
  constructor
  · rintro ⟨weak, array⟩
    rw [isSurvivingWeakReference_congr same, words, size] at weak
    rw [isSurvivingByteArray_congr same, size] at array
    exact ⟨weak, array⟩
  · rintro ⟨weak, array⟩
    constructor
    · rw [isSurvivingWeakReference_congr same, words, size]
      exact weak
    · rw [isSurvivingByteArray_congr same, size]
      exact array

theorem scanStep_congr
    {memory : Memory}
    {block : Nat}
    (same : ∀ address, block ≤ address → memory address = initial address) :
    scanStep memory stop blockSize block =
      scanStep initial stop blockSize block := by
  rw [scanStep, scanStep, isSurvivingWeakReference_congr same,
    isSurvivingByteArray_congr same, words, words,
    (fields_congr (same block (Nat.le_refl _))).2.2]

theorem Visited.congr
    {memory : Memory}
    {block : Nat}
    (same : ∀ address, start ≤ address → memory address = initial address)
    (visited : Visited initial stop blockSize start block) :
    Visited memory stop blockSize start block := by
  induction visited with
  | start => exact .start
  | step visited starts inductionHypothesis =>
      have atBlock := visited.start_le
      rw [← scanStep_congr fun address beyond =>
        same address (Nat.le_trans atBlock beyond)]
      exact .step inductionHypothesis starts

end Payload

/-! ## Clusters -/

/-- `HeapCluster_Initialize` tiles the payload of a cluster exactly when every
block its scan comes by is sound. -/
theorem heapClusterInitialize_tiles_iff
    {memory : Memory}
    {cluster size blockSize : Nat}
    (fits : size ≤ c_HeapClusterSize)
    (positive : 1 ≤ blockSize) :
    ScanTiles (writeHeader memory cluster (payloadBlocks size))
        (cluster + 8 + 3 * payloadBlocks size) blockSize (cluster + 8) ↔
      ∀ block, Visited memory (cluster + 8 + 3 * payloadBlocks size)
          blockSize (cluster + 8) block →
        block < cluster + 8 + 3 * payloadBlocks size →
          SoundAt memory (cluster + 8 + 3 * payloadBlocks size) block := by
  have small : payloadBlocks size ≤ HB_MaxSize := by
    simp only [payloadBlocks, c_HeapClusterSize, headerBytes, heapBlockBytes,
      HB_MaxSize] at fits ⊢
    omega
  have same (address : Nat) (beyond : cluster + 8 ≤ address) :
      writeHeader memory cluster (payloadBlocks size) address =
        memory address :=
    writeHeader_elsewhere _ _ _ _ (.inr beyond)
  rw [scanTiles_iff positive (by omega) (by omega) (by omega)]
  constructor
  · intro sound block visited starts
    have atBlock := visited.start_le
    apply (soundAt_congr fun address beyond =>
      same address (Nat.le_trans atBlock beyond)).mp
    exact sound block (visited.congr same) starts
  · intro sound block visited starts
    have atBlock := visited.start_le
    apply (soundAt_congr fun address beyond =>
      same address (Nat.le_trans atBlock beyond)).mpr
    exact sound block
      (visited.congr fun address beyond => (same address beyond).symm) starts

/-- A weak reference that survives a reset, an array of four bytes behind it,
and nothing else. -/
def oldObjects : Memory
  | 108 => rawId DataType.weakClass.code 0 weakReferenceSize
  | 112 => WR_SurviveBoot
  | 118 => 1
  | 120 => rawId DataType.szArray.code 0 2
  | 123 => 4
  | 124 => DataType.u1.code + 0x100
  | _ => 0

/-- Both objects are salvaged and the heap block behind them is free. -/
theorem heapClusterInitialize_tiles_salvaged :
    ScanTiles (writeHeader oldObjects 100 (payloadBlocks 116)) 129 1 108 := by
  refine (heapClusterInitialize_tiles_iff (by decide) (Nat.le_refl 1)).mpr ?_
  have places (block : Nat) (visited : Visited oldObjects 129 1 108 block) :
      block ∈ [108, 120, 126, 129] := by
    induction visited with
    | start => decide
    | step visited starts inductionHypothesis =>
        simp only [List.mem_cons, List.not_mem_nil, or_false] at *
        rcases inductionHypothesis with rfl | rfl | rfl | rfl
        · exact .inr (.inl (by decide))
        · exact .inr (.inr (.inl (by decide)))
        · exact .inr (.inr (.inr (by decide)))
        · exact absurd starts (by decide)
  intro block visited starts
  have isPlace := places block visited
  simp only [List.mem_cons, List.not_mem_nil, or_false] at isPlace
  rcases isPlace with rfl | rfl | rfl | rfl
  · exact ⟨fun _ => by decide, fun _ => by decide⟩
  · exact ⟨fun _ => by decide, fun _ => by decide⟩
  · exact ⟨fun isWeak => absurd isWeak (by decide),
      fun isArray => absurd isArray (by decide)⟩
  · exact absurd starts (by decide)

/-- The header of a weak reference that survives a reset, and nothing else. -/
def oldWeakReference : Memory
  | 108 => rawId DataType.weakClass.code 0 weakReferenceSize
  | 112 => WR_SurviveBoot
  | 118 => 1
  | _ => 0

/-- The header of an array of bytes whose length wraps around to zero, and
nothing else. -/
def oldArray : Memory
  | 108 => rawId DataType.szArray.code 0 0
  | 111 => 0xFFFFFFEC
  | 112 => DataType.u1.code + 0x100
  | _ => 0

/-- A weak reference of four heap blocks does not fit in a payload of two, and
an array without any keeps the scan where it is. -/
theorem heapClusterInitialize_not_tiles :
    ¬ ScanTiles (writeHeader oldWeakReference 100 (payloadBlocks 56)) 114 1
        108 ∧
      ¬ ScanTiles (writeHeader oldArray 100 (payloadBlocks 56)) 114 1 108 := by
  constructor
  · intro tiles
    have sound := (scanTiles_iff (Nat.le_refl 1) (by decide) (by decide)
      (by decide)).mp tiles 108 .start (by decide)
    exact absurd (sound.weak (by decide)) (by decide)
  · intro tiles
    have sound := (scanTiles_iff (Nat.le_refl 1) (by decide) (by decide)
      (by decide)).mp tiles 108 .start (by decide)
    exact absurd (sound.array (by decide)) (by decide)

end HeapCluster

end NanoClr
