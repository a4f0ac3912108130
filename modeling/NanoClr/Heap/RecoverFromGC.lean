import NanoClr.Heap.ExtractBlocks

/-!
# Sweeping a cluster

The sweep walks the payload once.  Blocks that are alive stay where they are
and lose the mark, unless they belong to events; every run of dead blocks
becomes one free block, and the free list is rebuilt on the way.
-/

namespace NanoClr

open HeapBlock

namespace HeapCluster

/-- A payload tiled by blocks, whatever the free list holds. -/
structure Laid (memory : Memory) (cluster : Nat) (blocks : List Nat) :
    Prop where
  start : payloadStart memory cluster = cluster + 8
  small : payloadEnd memory cluster ≤ cluster + 8 + 3 * HB_MaxSize
  tiling : HeapTiling memory (payloadEnd memory cluster) (cluster + 8) blocks
  unmarked : ∀ block ∈ freeOf memory blocks, isAlive memory block = false

/-- The identity word that a block alive keeps in a sweep. -/
def sweptId (memory : Memory) (block : Nat) : Nat :=
  if isEvent memory block then memory block else markDead memory block block

/-- How a sweep turns some blocks into others. -/
structure Swept (memory memory' : Memory) (blocks blocks' : List Nat) :
    Prop where
  /-- Blocks alive stay; only the mark may go. -/
  alive : ∀ block ∈ blocks, isAlive memory block = true →
    block ∈ blocks' ∧ memory' block = sweptId memory block ∧
      ∀ address, block < address → address < block + words memory block →
        memory' address = memory address
  /-- Dead blocks are part of a free block. -/
  dead : ∀ block ∈ blocks, isAlive memory block = false →
    ∃ free ∈ blocks', isFree memory' free = true ∧ free ≤ block ∧
      block + words memory block ≤ free + words memory' free
  /-- Only blocks alive are in use. -/
  used : ∀ block ∈ blocks', isFree memory' block = false →
    block ∈ blocks ∧ isAlive memory block = true

variable {memory memory' : Memory} {cluster : Nat}

/-- The swept identity names the same type and size. -/
theorem sweptId_fields (memory : Memory) (block : Nat) :
    sweptId memory block % 0x100 = memory block % 0x100 ∧
      sweptId memory block / 0x10000 % 0x10000 =
        memory block / 0x10000 % 0x10000 := by
  rw [sweptId]
  split
  · exact ⟨rfl, rfl⟩
  · simp [markDead, resetFlags, setDataId_same, dataTypeCode, dataSize]

theorem words_sweptId
    {block : Nat}
    (swept : memory' block = sweptId memory block) :
    words memory' block = words memory block := by
  simp only [words, dataSize, swept, (sweptId_fields memory block).2]

theorem isFree_sweptId
    {block : Nat}
    (swept : memory' block = sweptId memory block) :
    isFree memory' block = isFree memory block := by
  have sameType : dataType memory' block = dataType memory block := by
    simp only [dataType, dataTypeCode, swept, (sweptId_fields memory block).1]
  rw [isFree, isFree, sameType]

/-! ## Runs of dead blocks -/

/-- The inner loop passes a run of dead blocks and adds up their sizes. -/
theorem loop_deadRun
    {stop block : Nat}
    (bound passed : Nat)
    {rest : List Nat}
    (tiling : HeapTiling memory stop block rest)
    (starts : block < stop)
    (dead : isAlive memory block = false)
    (enough : rest.length < bound) :
    ∃ after lenTot run rest',
      loop (deadRun memory stop) bound (block, passed) =
          some (after, passed + lenTot) ∧
        rest = run ++ rest' ∧ block < after ∧
        HeapTiling memory after block run ∧
        HeapTiling memory stop after rest' ∧
        (∀ other ∈ run, isAlive memory other = false) ∧
        block + 3 * lenTot = after := by
  induction rest generalizing block bound passed with
  | nil =>
      have same : block = stop := tiling
      omega
  | cons first rest inductionHypothesis =>
      obtain ⟨rfl, positive, tail⟩ := tiling
      obtain ⟨bound, rfl⟩ : ∃ less, bound = less + 1 :=
        ⟨bound - 1, by omega⟩
      have wordsEq : words memory first = 3 * dataSize memory first := rfl
      by_cases goesOn : first + words memory first < stop ∧
          isAlive memory (first + words memory first) = false
      · have decides : deadRun memory stop (first, passed) =
            .next (first + words memory first,
              passed + dataSize memory first) := by
          simp [deadRun, goesOn]
        rw [loop_succ_next decides]
        obtain ⟨after, lenTot, run, rest', returns, rfl, longer, tiled, tail',
          allDead, length⟩ := inductionHypothesis bound
            (passed + dataSize memory first) tail goesOn.1 goesOn.2
            (by simp only [List.length_cons] at enough; omega)
        refine ⟨after, dataSize memory first + lenTot, first :: run, rest', ?_,
          rfl, by omega, ⟨rfl, positive, tiled⟩, tail', ?_, by omega⟩
        · rw [returns, Nat.add_assoc]
        · simpa [dead] using allDead
      · have decides : deadRun memory stop (first, passed) =
            .done (first + words memory first,
              passed + dataSize memory first) := by
          simp only [deadRun]
          rw [if_neg goesOn]
        rw [loop_succ_done decides]
        exact ⟨_, dataSize memory first, [first], rest, rfl, rfl, by omega,
          ⟨rfl, positive, rfl⟩, tail, by simpa using dead, rfl⟩

/-! ## The sweep -/

/-- What the sweep keeps about the blocks it has passed. -/
structure Passed
    (memory swept : Memory) (cluster stop : Nat) (done out lefts : List Nat)
    (last : Nat) : Prop where
  tilingDone : HeapTiling memory stop (cluster + 8) done
  tilingOut : HeapTiling swept stop (cluster + 8) out
  nodes : (cluster + 2) :: freeOf swept out = lefts ++ [last]
  linked : Linked (next swept) (prev swept) (lefts ++ [last])
  pinned : ∀ block ∈ freeOf swept out, dataFlags swept block = HB_Pinned
  result : Swept memory swept done out

/-- The last linked node is the head or a free block that was passed. -/
theorem Passed.last_place
    {swept : Memory}
    {stop last : Nat}
    {done out lefts : List Nat}
    (passed : Passed memory swept cluster stop done out lefts last) :
    last = cluster + 2 ∨ last ∈ freeOf swept out ∧ cluster + 8 ≤ last ∧
      last + 3 ≤ stop := by
  have member : last ∈ (cluster + 2) :: freeOf swept out := by
    simp [passed.nodes]
  rcases List.mem_cons.mp member with isHead | free
  · exact Or.inl isHead
  · have := mem_freeOf_place passed.tilingOut free
    exact Or.inr ⟨free, by omega, by omega⟩

/-- Later writes leave the passed blocks alone, but for the forward link of
the last free one. -/
theorem Passed.keep
    {swept : Memory}
    (swept' : Memory)
    {stop last : Nat}
    {blocks done out lefts rest : List Nat}
    (laid : Laid memory cluster blocks)
    (split : blocks = done ++ rest)
    (passed : Passed memory swept cluster stop done out lefts last)
    (same : ∀ address, address < stop → address ≠ last + 1 →
      address ≠ cluster + 4 → address ≠ cluster + 5 →
        swept' address = swept address) :
    Passed memory swept' cluster stop done out lefts last := by
  have tilingOut := passed.tilingOut
  have spanOut := tilingOut.span
  have lastPlace := passed.last_place
  have keepsId (block : Nat) (member : block ∈ out) :
      swept' block = swept block := by
    have place := tilingOut.place member
    refine same block (by omega) ?_ (by omega) (by omega)
    rcases lastPlace with isHead | ⟨free, _⟩
    · omega
    · have := mem_freeOf_place tilingOut free
      omega
  have sameFree := freeOf_congr keepsId
  refine {
    tilingDone := passed.tilingDone
    tilingOut := tilingOut.congr keepsId
    nodes := by rw [sameFree, passed.nodes]
    linked := ?_
    pinned := ?_
    result := { alive := ?_, dead := ?_, used := ?_ } }
  · have sorted : (lefts ++ [last]).Pairwise (· < ·) := by
      rw [← passed.nodes]
      refine List.pairwise_cons.mpr ⟨?_, freeOf_sorted tilingOut⟩
      intro other free
      have := mem_freeOf_place tilingOut free
      omega
    refine passed.linked.congr ?_ ?_
    · intro node member
      rw [List.dropLast_concat] at member
      have smaller := (List.pairwise_append.mp sorted).2.2 node member last
        (by simp)
      have nodePlace : node = cluster + 2 ∨ cluster + 8 ≤ node := by
        have isNode : node ∈ (cluster + 2) :: freeOf swept out := by
          simp [passed.nodes, member]
        rcases List.mem_cons.mp isNode with isHead | free
        · exact Or.inl isHead
        · exact Or.inr (mem_freeOf_place tilingOut free).1
      exact same _ (by omega) (by omega) (by omega) (by omega)
    · intro node member
      rw [← passed.nodes, List.tail_cons] at member
      have place := mem_freeOf_place tilingOut member
      refine same _ (by omega) ?_ (by omega) (by omega)
      rcases lastPlace with isHead | ⟨free, _⟩
      · omega
      · have := mem_freeOf_place tilingOut free
        omega
  · intro block member
    rw [sameFree] at member
    rw [(fields_congr (keepsId block (mem_freeOf.mp member).1)).2.1]
    exact passed.pinned block member
  · intro block member alive
    obtain ⟨isOut, swept, interior⟩ := passed.result.alive block member alive
    refine ⟨isOut, (keepsId block isOut).trans swept, ?_⟩
    intro address lower upper
    have place := passed.tilingDone.place member
    rw [← interior address lower upper]
    refine same address (by omega) ?_ (by omega) (by omega)
    rcases lastPlace with isHead | ⟨free, _⟩
    · omega
    · obtain ⟨isLast, isFree⟩ := mem_freeOf.mp free
      have different : last ≠ block := by
        rintro rfl
        rw [isFree_sweptId swept] at isFree
        have unmarked := laid.unmarked last
          (mem_freeOf.mpr ⟨by simp [split, member], isFree⟩)
        simp [alive] at unmarked
      have lastWords := tilingOut.place isLast
      have sameWords := words_sweptId swept
      have := tilingOut.disjoint isLast isOut different
      omega
  · intro block member dead
    obtain ⟨free, isOut, isFree, lower, upper⟩ :=
      passed.result.dead block member dead
    have sameId := keepsId free isOut
    refine ⟨free, isOut, by rw [isFree_congr sameId, isFree], lower, ?_⟩
    simpa only [words, (fields_congr sameId).2.2] using upper
  · intro block isOut used
    rw [isFree_congr (keepsId block isOut)] at used
    exact passed.result.used block isOut used

/-- The state of the sweep of a payload: the blocks passed so far were turned
into others, the free ones among these are linked up to the last, and nothing
behind the current block was written. -/
structure Sweeping
    (memory : Memory) (cluster : Nat) (blocks : List Nat) (state : Sweep) :
    Prop where
  reached : ∃ done rest out lefts, blocks = done ++ rest ∧
    HeapTiling memory (payloadEnd memory cluster) state.block rest ∧
    Passed memory state.memory cluster state.block done out lefts state.last
  ended : prev state.memory (cluster + 2) = 0
  ahead : ∀ address, state.block ≤ address →
    state.memory address = memory address
  header : ∀ address, address < cluster + 8 → address ≠ cluster + 3 →
    address ≠ cluster + 4 → state.memory address = memory address

/-- A free block that is laid over a run of dead blocks is linked behind the
last one. -/
theorem Sweeping.deadRound
    {blocks : List Nat}
    {state : Sweep}
    (laid : Laid memory cluster blocks)
    (sweeping : Sweeping memory cluster blocks state)
    {bound : Nat}
    (starts : state.block < payloadEnd memory cluster)
    (dead : isAlive state.memory state.block = false)
    (enough : blocks.length < bound) :
    ∃ later, sweepBlock bound (payloadEnd memory cluster) state =
        .next later ∧
      state.block < later.block ∧ Sweeping memory cluster blocks later := by
  obtain ⟨⟨done, rest, out, lefts, split, tilingRest, passed⟩, ended, ahead,
    header⟩ := sweeping
  have aheadId (block : Nat) (member : block ∈ rest) :
      state.memory block = memory block :=
    ahead block (tilingRest.place member).1
  obtain ⟨after, lenTot, run, rest', returns, rfl, longer, tilingRun,
    tilingRest', allDead, length⟩ := loop_deadRun bound 0
      (tilingRest.congr aheadId) starts dead
      (by rw [split] at enough; simp at enough; omega)
  rw [Nat.zero_add] at returns
  have tilingRun' : HeapTiling memory after state.block run :=
    tilingRun.congr fun block member => (aheadId block (by simp [member])).symm
  have tilingRest'' : HeapTiling memory (payloadEnd memory cluster) after
      rest' :=
    tilingRest'.congr fun block member =>
      (aheadId block (by simp [member])).symm
  have lastPlace := passed.last_place
  have spanOut := passed.tilingOut.span
  have spanRest := tilingRest''.span
  have small := laid.small
  have sizeSmall : lenTot % 0x10000 = lenTot := by
    simp only [HB_MaxSize] at small
    exact Nat.mod_eq_of_lt (by omega)
  generalize fixed : setPrev (setNext (setDataId state.memory state.block
    (rawId DataType.freeBlock.code HB_Pinned lenTot)) state.last state.block)
    state.block state.last = swept
  have sameBehind (address : Nat) (behind : address < state.block)
      (notLink : address ≠ state.last + 1) :
      swept address = state.memory address := by
    rw [← fixed]
    simp (disch := omega) only [setDataId, setNext, setPrev,
      Function.update_of_ne]
  have kept := passed.keep swept laid split
    fun address behind notLink _ _ => sameBehind address behind notLink
  have blockId : swept state.block = setDataId state.memory state.block
      (rawId DataType.freeBlock.code HB_Pinned lenTot) state.block := by
    rw [← fixed]
    simp (disch := omega) only [setDataId, setNext, setPrev,
      Function.update_of_ne]
  obtain ⟨blockType, blockFlags, blockSize⟩ := fields_congr blockId
  rw [dataType_setDataId] at blockType
  rw [dataFlags_setDataId] at blockFlags
  rw [dataSize_setDataId, sizeSmall] at blockSize
  have blockFree : isFree swept state.block = true := by
    simp [isFree, blockType]
  have blockWords : state.block + words swept state.block = after := by
    rw [words, blockSize, length]
  have blockPositive : 0 < words swept state.block := by omega
  refine ⟨⟨swept, after, state.block⟩, ?_, longer,
    ⟨⟨done ++ run, rest', out ++ [state.block], lefts ++ [state.last], ?_,
      tilingRest'', ?_⟩, ?_, ?_, ?_⟩⟩
  · simp only [sweepBlock]
    rw [if_pos starts, if_pos dead, returns]
    simp only [fixed]
  · rw [split, List.append_assoc]
  · refine {
      tilingDone := Tiling.append_iff.mpr
        ⟨_, passed.tilingDone, tilingRun'⟩
      tilingOut := Tiling.append_iff.mpr
        ⟨_, kept.tilingOut, rfl, blockPositive, blockWords⟩
      nodes := by
        rw [freeOf_append, freeOf_cons_free blockFree, freeOf_nil,
          ← List.cons_append, kept.nodes]
      linked := ?_
      pinned := ?_
      result := { alive := ?_, dead := ?_, used := ?_ } }
    · have pair : LinkedPair (next swept) (prev swept) state.last
          state.block := by
        refine ⟨?_, ?_⟩ <;> rw [← fixed] <;>
          simp (disch := omega) only [next, prev, setNext, setPrev,
            Function.update_of_ne, Function.update_self]
      have joined := kept.linked.join pair (List.isChain_singleton state.block)
      simpa using joined
    · intro block member
      rw [freeOf_append, freeOf_cons_free blockFree, freeOf_nil] at member
      rcases List.mem_append.mp member with isOut | isBlock
      · exact kept.pinned block isOut
      · rw [List.mem_singleton.mp isBlock, blockFlags]
        rfl
    · intro block member alive
      rcases List.mem_append.mp member with isDone | isRun
      · obtain ⟨isOut, facts⟩ := kept.result.alive block isDone alive
        exact ⟨by simp [isOut], facts⟩
      · have sameId := aheadId block (by simp [isRun])
        have isDead := allDead block isRun
        rw [isAlive, isFlagSet, (fields_congr sameId).2.1] at isDead
        simp [isAlive, isFlagSet, isDead] at alive
    · intro block member isDead
      rcases List.mem_append.mp member with isDone | isRun
      · obtain ⟨free, isOut, facts⟩ := kept.result.dead block isDone isDead
        exact ⟨free, by simp [isOut], facts⟩
      · have place := tilingRun'.place isRun
        exact ⟨state.block, by simp, blockFree, place.1,
          by rw [blockWords]; exact place.2.2.2⟩
    · intro block member used
      rcases List.mem_append.mp member with isOut | isBlock
      · obtain ⟨isDone, alive⟩ := kept.result.used block isOut used
        exact ⟨by simp [isDone], alive⟩
      · rw [List.mem_singleton.mp isBlock, blockFree] at used
        exact absurd used (by simp)
  · rw [← ended, ← fixed]
    simp (disch := omega) only [prev, setDataId, setNext, setPrev,
      Function.update_of_ne]
  · intro address beyond
    have beyond : after ≤ address := beyond
    rw [← ahead address (by omega), ← fixed]
    simp (disch := omega) only [setDataId, setNext, setPrev,
      Function.update_of_ne]
  · intro address inHeader notFirst notNull
    rw [← header address inHeader notFirst notNull, ← fixed]
    simp (disch := omega) only [setDataId, setNext, setPrev,
      Function.update_of_ne]

/-- A block alive is passed. -/
theorem Sweeping.aliveRound
    {blocks : List Nat}
    {state : Sweep}
    (laid : Laid memory cluster blocks)
    (sweeping : Sweeping memory cluster blocks state)
    {bound : Nat}
    (starts : state.block < payloadEnd memory cluster)
    (alive : isAlive state.memory state.block = true) :
    ∃ later, sweepBlock bound (payloadEnd memory cluster) state =
        .next later ∧
      state.block < later.block ∧ Sweeping memory cluster blocks later := by
  obtain ⟨⟨done, rest, out, lefts, split, tilingRest, passed⟩, ended, ahead,
    header⟩ := sweeping
  cases rest with
  | nil =>
      have same : state.block = payloadEnd memory cluster := tilingRest
      omega
  | cons block rest =>
  obtain ⟨rfl, positive, tilingRest⟩ := tilingRest
  have sameId : state.memory state.block = memory state.block :=
    ahead _ (Nat.le_refl _)
  have aliveBefore : isAlive memory state.block = true := by
    rw [isAlive, isFlagSet, ← (fields_congr sameId).2.1]
    exact alive
  generalize fixed : (if isEvent state.memory state.block then state.memory
    else markDead state.memory state.block) = swept
  have sweptBlock : swept state.block = sweptId memory state.block := by
    have sameEvent : isEvent state.memory state.block =
        isEvent memory state.block := by
      rw [isEvent, isFlagSet, (fields_congr sameId).2.1]
      rfl
    rw [← fixed, sweptId, sameEvent]
    split
    · exact sameId
    · simp only [markDead, resetFlags, setDataId_same, dataTypeCode, dataFlags,
        dataSize, sameId]
  have sameOther (address : Nat) (different : address ≠ state.block) :
      swept address = state.memory address := by
    rw [← fixed]
    split
    · rfl
    · exact resetFlags_other _ _ _ _ different
  have sameWords := words_sweptId sweptBlock
  have used : isFree swept state.block = false := by
    rw [isFree_sweptId sweptBlock]
    by_contra free
    have unmarked := laid.unmarked state.block
      (mem_freeOf.mpr ⟨by simp [split], by simpa using free⟩)
    simp [aliveBefore] at unmarked
  have kept := passed.keep swept laid split fun address behind _ _ _ =>
      sameOther address (by omega)
  have spanOut := passed.tilingOut.span
  refine ⟨⟨swept, state.block + words memory state.block, state.last⟩, ?_,
    by simp only; omega, ⟨⟨done ++ [state.block], rest, out ++ [state.block], lefts, ?_,
      tilingRest, ?_⟩, ?_, ?_, ?_⟩⟩
  · simp only [sweepBlock]
    rw [if_pos starts, if_neg (by simp [alive])]
    simp only [fixed, sameWords]
  · simp [split]
  · refine {
      tilingDone := Tiling.append_iff.mpr
        ⟨_, passed.tilingDone, rfl, positive, rfl⟩
      tilingOut := Tiling.append_iff.mpr
        ⟨_, kept.tilingOut, rfl, by rw [sameWords]; exact positive,
          by rw [sameWords]; rfl⟩
      nodes := by
        rw [freeOf_append, freeOf_cons_used used, freeOf_nil, List.append_nil,
          kept.nodes]
      linked := kept.linked
      pinned := ?_
      result := { alive := ?_, dead := ?_, used := ?_ } }
    · intro block member
      rw [freeOf_append, freeOf_cons_used used, freeOf_nil, List.append_nil]
        at member
      exact kept.pinned block member
    · intro block member isAlive
      rcases List.mem_append.mp member with isDone | isBlock
      · obtain ⟨isOut, facts⟩ := kept.result.alive block isDone isAlive
        exact ⟨by simp [isOut], facts⟩
      · rw [List.mem_singleton.mp isBlock]
        refine ⟨by simp, sweptBlock, fun address lower _ => ?_⟩
        exact (sameOther address (by omega)).trans (ahead address (by omega))
    · intro block member isDead
      rcases List.mem_append.mp member with isDone | isBlock
      · obtain ⟨free, isOut, facts⟩ := kept.result.dead block isDone isDead
        exact ⟨free, by simp [isOut], facts⟩
      · rw [List.mem_singleton.mp isBlock, aliveBefore] at isDead
        exact absurd isDead (by simp)
    · intro block member isUsed
      rcases List.mem_append.mp member with isOut | isBlock
      · obtain ⟨isDone, facts⟩ := kept.result.used block isOut isUsed
        exact ⟨by simp [isDone], facts⟩
      · rw [List.mem_singleton.mp isBlock]
        exact ⟨by simp, aliveBefore⟩
  · rw [← ended]
    exact sameOther _ (by omega)
  · intro address beyond
    have beyond : state.block + words memory state.block ≤ address := beyond
    rw [← ahead address (by omega)]
    exact sameOther _ (by omega)
  · intro address inHeader notFirst notNull
    rw [← header address inHeader notFirst notNull]
    exact sameOther _ (by omega)

/-- The sweep reaches the end of the payload. -/
theorem loop_sweepBlock
    {blocks : List Nat}
    {state : Sweep}
    (laid : Laid memory cluster blocks)
    (sweeping : Sweeping memory cluster blocks state) :
    ∃ swept, loop (sweepBlock (rounds memory cluster)
        (payloadEnd memory cluster)) (rounds memory cluster) state =
          some (some swept) ∧
      payloadEnd memory cluster ≤ swept.block ∧
      Sweeping memory cluster blocks swept := by
  have start : payloadStart memory cluster = cluster + 8 := laid.start
  have counted := laid.tiling.length_le
  have enough : blocks.length < rounds memory cluster := by
    rw [rounds, start]
    omega
  have inBounds : payloadEnd memory cluster - state.block <
      rounds memory cluster := by
    obtain ⟨⟨_, _, _, _, _, _, passed⟩, _⟩ := sweeping
    have := passed.tilingOut.start_le_stop
    rw [rounds, start]
    omega
  have total := loop_total
    (sweepBlock (rounds memory cluster) (payloadEnd memory cluster))
    (Sweeping memory cluster blocks)
    (fun result => ∃ swept, result = some swept ∧
      payloadEnd memory cluster ≤ swept.block ∧
      Sweeping memory cluster blocks swept)
    (fun state => payloadEnd memory cluster - state.block)
    ?_ ?_ sweeping inBounds
  · obtain ⟨_, returns, swept, rfl, reached, final⟩ := total
    exact ⟨swept, returns, reached, final⟩
  · intro state later holds decides
    by_cases starts : state.block < payloadEnd memory cluster
    · have round : ∃ later', sweepBlock (rounds memory cluster)
          (payloadEnd memory cluster) state = .next later' ∧
          state.block < later'.block ∧
          Sweeping memory cluster blocks later' := by
        cases alive : isAlive state.memory state.block with
        | false => exact holds.deadRound laid starts alive enough
        | true => exact holds.aliveRound laid starts alive
      obtain ⟨later', decides', further, kept⟩ := round
      rw [decides] at decides'
      obtain rfl := LoopStep.next.inj decides'
      exact ⟨kept, by omega⟩
    · simp [sweepBlock, starts] at decides
  · intro state result holds decides
    by_cases starts : state.block < payloadEnd memory cluster
    · have round : ∃ later', sweepBlock (rounds memory cluster)
          (payloadEnd memory cluster) state = .next later' := by
        cases alive : isAlive state.memory state.block with
        | false =>
            obtain ⟨later', decides', _⟩ :=
              holds.deadRound laid starts alive enough
            exact ⟨later', decides'⟩
        | true =>
            obtain ⟨later', decides', _⟩ := holds.aliveRound laid starts alive
            exact ⟨later', decides'⟩
      obtain ⟨later', decides'⟩ := round
      rw [decides] at decides'
      cases decides'
    · refine ⟨state, ?_, by omega, holds⟩
      simpa [sweepBlock, starts] using decides.symm

/-- `RecoverFromGC` on any payload that the blocks tile. -/
theorem recoverFromGC_spec
    {blocks : List Nat}
    (laid : Laid memory cluster blocks) :
    ∃ memory' blocks', recoverFromGC memory cluster = some memory' ∧
      WellFormed memory' cluster blocks' ∧
      Swept memory memory' blocks blocks' ∧
      payloadEnd memory' cluster = payloadEnd memory cluster ∧
      ∀ address, address < cluster ∨ payloadEnd memory cluster ≤ address →
        memory' address = memory address := by
  have start : payloadStart memory cluster = cluster + 8 := laid.start
  have opens : Sweeping memory cluster blocks
      ⟨setPrev memory (cluster + 2) 0, cluster + 8, cluster + 2⟩ := by
    refine ⟨⟨[], blocks, [], [], rfl, laid.tiling, ?_⟩, ?_, ?_, ?_⟩
    · exact {
        tilingDone := rfl
        tilingOut := rfl
        nodes := rfl
        linked := List.isChain_singleton _
        pinned := by simp
        result := { alive := by simp, dead := by simp, used := by simp } }
    · simp [prev, setPrev]
    · intro address beyond
      have beyond : cluster + 8 ≤ address := beyond
      simp (disch := omega) only [setPrev, Function.update_of_ne]
    · intro address _ _ notNull
      simp (disch := omega) only [setPrev, Function.update_of_ne]
  obtain ⟨state, returns, reached, ⟨done, rest, out, lefts, split, tilingRest,
    passed⟩, ended, ahead, header⟩ := loop_sweepBlock laid opens
  have spanRest := tilingRest.span
  have atEnd : state.block = payloadEnd memory cluster := by omega
  obtain rfl : rest = [] := by
    cases rest with
    | nil => rfl
    | cons block rest =>
        obtain ⟨rfl, positive, tail⟩ := tilingRest
        have := tail.start_le_stop
        omega
  rw [List.append_nil] at split
  have lastPlace := passed.last_place
  have spanOut := passed.tilingOut.span
  generalize fixed : setNext (setPrev (setNext state.memory state.last
    (cluster + 3)) (cluster + 3) state.last) (cluster + 3) 0 = closed
  have same (address : Nat) (notLink : address ≠ state.last + 1)
      (notNull : address ≠ cluster + 4) (notLast : address ≠ cluster + 5) :
      closed address = state.memory address := by
    rw [← fixed]
    simp (disch := omega) only [setNext, setPrev, Function.update_of_ne]
  have splitAll : blocks = done ++ [] := by simpa using split
  have kept := passed.keep closed laid splitAll
    fun address _ notLink notNull notLast =>
      same address notLink notNull notLast
  have sameEnd : payloadEnd closed cluster = payloadEnd memory cluster := by
    rw [payloadEnd, same _ (by omega) (by omega) (by omega)]
    exact header _ (by omega) (by omega) (by omega)
  refine ⟨closed, out, ?_, ?_, split ▸ kept.result, sameEnd, ?_⟩
  · simp only [recoverFromGC, head_freeList, tail_freeList, start, returns,
      Option.bind_eq_bind, Option.bind_some, fixed]
  · exact {
      start := by
        rw [payloadStart, same _ (by omega) (by omega) (by omega)]
        exact (header _ (by omega) (by omega) (by omega)).trans start
      small := by
        rw [sameEnd]
        exact laid.small
      tiling := by
        rw [sameEnd, ← atEnd]
        exact kept.tilingOut
      linked := by
        have pair : LinkedPair (next closed) (prev closed) state.last
            (cluster + 3) := by
          refine ⟨?_, ?_⟩ <;> rw [← fixed] <;>
            simp (disch := omega) only [next, prev, setNext, setPrev,
              Function.update_of_ne, Function.update_self]
        have joined := kept.linked.join pair
          (List.isChain_singleton (cluster + 3))
        rw [head_freeList, tail_freeList, kept.nodes]
        simpa using joined
      ended := by
        rw [← fixed]
        simp [prev, setNext]
      pinned := kept.pinned }
  · intro address outside
    rcases outside with below | beyond
    · rw [same _ (by omega) (by omega) (by omega)]
      exact header _ (by omega) (by omega) (by omega)
    · rw [same _ (by omega) (by omega) (by omega)]
      exact ahead _ (by omega)

end HeapCluster

end NanoClr
