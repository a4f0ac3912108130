import NanoClr.Heap.HeapCluster
import NanoClr.Library.Tiling

/-!
# The invariant of a heap cluster

A cluster is well formed when the blocks tile its payload and the free list
links exactly the free blocks in address order.  Every operation of the
cluster replaces some consecutive blocks by others and links the free ones
among them to the neighbours that stay, so the invariant is reestablished by
one theorem about such a replacement.
-/

namespace NanoClr

open HeapBlock

/-- Blocks that belong to the free list. -/
def isFree (memory : Memory) (block : Nat) : Bool :=
  dataType memory block = some .freeBlock

@[simp] theorem isFree_setDataId
    (memory : Memory)
    (block : Nat)
    (kind : DataType)
    (flags size : Nat) :
    isFree (setDataId memory block (rawId kind.code flags size)) block =
      decide (kind = .freeBlock) := by
  simp [isFree]

/-- The free ones among some blocks. -/
def freeOf (memory : Memory) (blocks : List Nat) : List Nat :=
  blocks.filter (isFree memory)

theorem isFree_congr
    {memory memory' : Memory}
    {block : Nat}
    (same : memory' block = memory block) :
    isFree memory' block = isFree memory block := by
  simp only [isFree, (fields_congr same).1]

theorem freeOf_congr
    {memory memory' : Memory}
    {blocks : List Nat}
    (same : ∀ block ∈ blocks, memory' block = memory block) :
    freeOf memory' blocks = freeOf memory blocks :=
  List.filter_congr fun block member => isFree_congr (same block member)

@[simp] theorem freeOf_append (memory : Memory) (before after : List Nat) :
    freeOf memory (before ++ after) =
      freeOf memory before ++ freeOf memory after :=
  List.filter_append before after

@[simp] theorem freeOf_nil (memory : Memory) : freeOf memory [] = [] := rfl

theorem freeOf_cons_free
    {memory : Memory}
    {block : Nat}
    (free : isFree memory block = true)
    (rest : List Nat) :
    freeOf memory (block :: rest) = block :: freeOf memory rest :=
  List.filter_cons_of_pos free

theorem freeOf_cons_used
    {memory : Memory}
    {block : Nat}
    (used : isFree memory block = false)
    (rest : List Nat) :
    freeOf memory (block :: rest) = freeOf memory rest :=
  List.filter_cons_of_neg (by simp [used])

theorem mem_freeOf {memory : Memory} {blocks : List Nat} {block : Nat} :
    block ∈ freeOf memory blocks ↔
      block ∈ blocks ∧ isFree memory block = true :=
  List.mem_filter

/-- A tiling by heap blocks. -/
abbrev HeapTiling (memory : Memory) (stop start : Nat) (blocks : List Nat) :
    Prop :=
  Tiling (words memory) stop start blocks

theorem HeapTiling.congr
    {memory memory' : Memory}
    {start stop : Nat}
    {blocks : List Nat}
    (tiling : HeapTiling memory stop start blocks)
    (same : ∀ block ∈ blocks, memory' block = memory block) :
    HeapTiling memory' stop start blocks :=
  Tiling.congr tiling fun block member => by
    simp only [words, (fields_congr (same block member)).2.2]

/-- Blocks take whole heap blocks and at least one. -/
theorem HeapTiling.place
    {memory : Memory}
    {start stop : Nat}
    {blocks : List Nat}
    (tiling : HeapTiling memory stop start blocks)
    {block : Nat}
    (member : block ∈ blocks) :
    start ≤ block ∧ block % 3 = start % 3 ∧
      3 ≤ words memory block ∧ block + words memory block ≤ stop := by
  have bounds := tiling.bounds member
  have aligned := tiling.aligned 3
    (fun _ _ => Nat.dvd_mul_right 3 _) member
  have positive := bounds.2.1
  simp only [words] at positive bounds ⊢
  omega

/-- A tiled stretch has a whole number of heap blocks. -/
theorem HeapTiling.span
    {memory : Memory}
    {start stop : Nat}
    {blocks : List Nat}
    (tiling : HeapTiling memory stop start blocks) :
    start ≤ stop ∧ stop % 3 = start % 3 := by
  induction blocks generalizing start with
  | nil =>
      have same : start = stop := tiling
      omega
  | cons block rest inductionHypothesis =>
      obtain ⟨rfl, positive, tail⟩ := tiling
      have := inductionHypothesis tail
      simp only [words] at this
      omega

/-- A stretch tiled by two blocks. -/
theorem HeapTiling.pair
    {memory : Memory}
    {first second stop : Nat}
    (firstPositive : 0 < words memory first)
    (adjacent : second = first + words memory first)
    (secondPositive : 0 < words memory second)
    (ends : second + words memory second = stop) :
    HeapTiling memory stop first [first, second] :=
  ⟨rfl, firstPositive, adjacent, secondPositive, ends⟩

namespace HeapCluster

/-- The invariant of a cluster whose payload holds the given blocks. -/
structure WellFormed (memory : Memory) (cluster : Nat) (blocks : List Nat) :
    Prop where
  /-- The payload follows the header. -/
  start : payloadStart memory cluster = cluster + 8
  /-- Sizes fit the 16-bit field. -/
  small : payloadEnd memory cluster ≤ cluster + 8 + 3 * HB_MaxSize
  /-- The blocks tile the payload exactly. -/
  tiling : HeapTiling memory (payloadEnd memory cluster) (cluster + 8) blocks
  /-- The free list links exactly the free blocks, in address order and with
  both sentinels. -/
  linked : Linked (next memory) (prev memory)
    (head (freeList cluster) :: freeOf memory blocks ++
      [tail (freeList cluster)])
  /-- Both sentinels end the list. -/
  ended : prev memory (head (freeList cluster)) = 0
  /-- Free blocks are pinned and not marked. -/
  pinned : ∀ block ∈ freeOf memory blocks, dataFlags memory block = HB_Pinned

@[simp] theorem head_freeList (cluster : Nat) :
    head (freeList cluster) = cluster + 2 := by
  simp [head, freeList]

@[simp] theorem tail_freeList (cluster : Nat) :
    tail (freeList cluster) = cluster + 3 := rfl

section Replace

variable {memory memory' : Memory} {cluster stop first last : Nat}
  {before old mid after lefts rights : List Nat} {left right : Nat}

/-- A free list around some blocks: the last node before and the first node
behind them. -/
structure Around
    (memory : Memory) (cluster : Nat) (before after : List Nat)
    (lefts : List Nat) (left right : Nat) (rights : List Nat) : Prop where
  leftNodes : (cluster + 2) :: freeOf memory before = lefts ++ [left]
  rightNodes : freeOf memory after ++ [cluster + 3] = right :: rights

/-- Every place in the payload has neighbours in the free list. -/
theorem exists_around
    (memory : Memory)
    (cluster : Nat)
    (before after : List Nat) :
    ∃ lefts left right rights,
      Around memory cluster before after lefts left right rights := by
  have leftNonempty : (cluster + 2) :: freeOf memory before ≠ [] := by simp
  have rightNonempty : freeOf memory after ++ [cluster + 3] ≠ [] := by simp
  obtain ⟨right, rights, rightNodes⟩ :=
    List.exists_cons_of_ne_nil rightNonempty
  exact ⟨_, _, right, rights,
    (List.dropLast_append_getLast leftNonempty).symm, rightNodes⟩

/-- The free nodes of a tiled stretch lie in it. -/
theorem mem_freeOf_place
    {start : Nat}
    {blocks : List Nat}
    (tiling : HeapTiling memory stop start blocks)
    {node : Nat}
    (member : node ∈ freeOf memory blocks) :
    start ≤ node ∧ node % 3 = start % 3 ∧ node + 3 ≤ stop := by
  have := tiling.place (mem_freeOf.mp member).1
  omega

theorem freeOf_sorted
    {start : Nat}
    {blocks : List Nat}
    (tiling : HeapTiling memory stop start blocks) :
    (freeOf memory blocks).Pairwise (· < ·) :=
  tiling.sorted.filter _

namespace Around

variable (around : Around memory cluster before after lefts left right rights)

include around

/-- The node before is the head or a free block among the blocks before. -/
theorem left_place
    (tiling : HeapTiling memory first (cluster + 8) before) :
    left = cluster + 2 ∨
      left ∈ freeOf memory before ∧ cluster + 8 ≤ left ∧
        left % 3 = (cluster + 8) % 3 ∧ left + 3 ≤ first := by
  have member : left ∈ (cluster + 2) :: freeOf memory before := by
    simp [around.leftNodes]
  rcases List.mem_cons.mp member with same | free
  · exact Or.inl same
  · exact Or.inr ⟨free, mem_freeOf_place tiling free⟩

/-- The node behind is the tail or a free block among the blocks behind. -/
theorem right_place
    (tiling : HeapTiling memory stop last after)
    (aligned : cluster + 8 ≤ last ∧ last % 3 = (cluster + 8) % 3) :
    right = cluster + 3 ∨
      right ∈ freeOf memory after ∧ last ≤ right ∧
        right % 3 = (cluster + 8) % 3 ∧ right + 3 ≤ stop := by
  have member : right ∈ freeOf memory after ++ [cluster + 3] := by
    simp [around.rightNodes]
  rcases List.mem_append.mp member with free | same
  · have place := mem_freeOf_place tiling free
    exact Or.inr ⟨free, place.1, by omega, place.2.2⟩
  · exact Or.inl (List.mem_singleton.mp same)

/-- The nodes further left differ from the node before. -/
theorem lefts_place
    (tiling : HeapTiling memory first (cluster + 8) before)
    {node : Nat}
    (member : node ∈ lefts) :
    node ≠ left ∧ (node = cluster + 2 ∨
      node ∈ freeOf memory before ∧ cluster + 8 ≤ node ∧
        node % 3 = (cluster + 8) % 3 ∧ node + 3 ≤ first) := by
  have sorted : ((cluster + 2) :: freeOf memory before).Pairwise (· < ·) := by
    refine List.pairwise_cons.mpr ⟨?_, freeOf_sorted tiling⟩
    intro other free
    have := mem_freeOf_place tiling free
    omega
  rw [around.leftNodes] at sorted
  have smaller := (List.pairwise_append.mp sorted).2.2 node member left
    (by simp)
  refine ⟨Nat.ne_of_lt smaller, ?_⟩
  have isNode : node ∈ (cluster + 2) :: freeOf memory before := by
    rw [around.leftNodes]
    simp [member]
  rcases List.mem_cons.mp isNode with same | free
  · exact Or.inl same
  · exact Or.inr ⟨free, mem_freeOf_place tiling free⟩

/-- The nodes further right differ from the node behind. -/
theorem rights_place
    (tiling : HeapTiling memory stop last after)
    (aligned : cluster + 8 ≤ last ∧ last % 3 = (cluster + 8) % 3)
    {node : Nat}
    (member : node ∈ rights) :
    node ≠ right ∧ (node = cluster + 3 ∨
      node ∈ freeOf memory after ∧ last ≤ node ∧
        node % 3 = (cluster + 8) % 3 ∧ node + 3 ≤ stop) := by
  have nodup : (freeOf memory after ++ [cluster + 3]).Nodup := by
    refine List.nodup_append.mpr
      ⟨(freeOf_sorted tiling).imp Nat.ne_of_lt, by simp, ?_⟩
    intro free isFree tailNode isTail
    have := mem_freeOf_place tiling isFree
    have := List.mem_singleton.mp isTail
    omega
  rw [around.rightNodes] at nodup
  have different := (List.nodup_cons.mp nodup).1
  refine ⟨fun same => different (same ▸ member), ?_⟩
  have isNode : node ∈ freeOf memory after ++ [cluster + 3] := by
    rw [around.rightNodes]
    simp [member]
  rcases List.mem_append.mp isNode with free | same
  · have place := mem_freeOf_place tiling free
    exact Or.inr ⟨free, place.1, by omega, place.2.2⟩
  · exact Or.inl (List.mem_singleton.mp same)

end Around

/-- What a replacement of the blocks between two addresses may write: that
stretch and the two links of the neighbouring nodes that point into it. -/
def WritesOnly
    (memory memory' : Memory) (first last left right : Nat) : Prop :=
  ∀ address, address < first ∨ last ≤ address → address ≠ left + 1 →
    address ≠ right + 2 → memory' address = memory address

namespace WritesOnly

variable (writes : WritesOnly memory memory' first last left right)

include writes

/-- A replacement leaves the blocks in use around it unaltered. -/
theorem keepsUsed
    (around : Around memory cluster before after lefts left right rights)
    (tilingBefore : HeapTiling memory first (cluster + 8) before)
    (firstLast : first ≤ last ∧ last % 3 = first % 3)
    (tilingAfter : HeapTiling memory stop last after)
    {block : Nat}
    (member : block ∈ before ++ after)
    (used : isFree memory block = false)
    {address : Nat}
    (inside : block ≤ address ∧ address < block + words memory block) :
    memory' address = memory address := by
  have spanBefore := tilingBefore.span
  have lastPlace : cluster + 8 ≤ last ∧ last % 3 = (cluster + 8) % 3 := by
    omega
  have leftPlace := around.left_place tilingBefore
  have rightPlace := around.right_place tilingAfter lastPlace
  have different (node : Nat) (free : isFree memory node = true) :
      node ≠ block := by
    rintro rfl
    simp [free] at used
  rcases List.mem_append.mp member with member | member
  · have place := tilingBefore.place member
    refine writes address (by omega) ?_ (by omega)
    rcases leftPlace with isHead | ⟨free, _⟩
    · omega
    · obtain ⟨isBlock, free⟩ := mem_freeOf.mp free
      have leftWords := (tilingBefore.place isBlock).2.2.1
      have := tilingBefore.disjoint isBlock member (different left free)
      omega
  · have place := tilingAfter.place member
    refine writes address (by omega) (by omega) ?_
    rcases rightPlace with isTail | ⟨free, _⟩
    · omega
    · obtain ⟨isBlock, free⟩ := mem_freeOf.mp free
      have rightWords := (tilingAfter.place isBlock).2.2.1
      have := tilingAfter.disjoint isBlock member (different right free)
      omega

/-- A replacement writes inside the cluster only. -/
theorem keepsOutside
    (around : Around memory cluster before after lefts left right rights)
    (tilingBefore : HeapTiling memory first (cluster + 8) before)
    (firstLast : first ≤ last ∧ last % 3 = first % 3)
    (tilingAfter : HeapTiling memory stop last after)
    {address : Nat}
    (outside : address < cluster ∨ stop ≤ address)
    (header : cluster + 8 ≤ stop) :
    memory' address = memory address := by
  have spanBefore := tilingBefore.span
  have spanAfter := tilingAfter.span
  have leftPlace := around.left_place tilingBefore
  have rightPlace := around.right_place tilingAfter (by omega)
  exact writes address (by omega) (by omega) (by omega)

end WritesOnly

/-- A cluster seen around the stretch between two addresses: everything that
the invariant says of the blocks and the nodes on both sides. -/
structure Surroundings
    (memory : Memory) (cluster : Nat) (before after : List Nat)
    (first last : Nat) (lefts : List Nat) (left right : Nat)
    (rights : List Nat) : Prop where
  start : payloadStart memory cluster = cluster + 8
  small : payloadEnd memory cluster ≤ cluster + 8 + 3 * HB_MaxSize
  ended : prev memory (cluster + 2) = 0
  tilingBefore : HeapTiling memory first (cluster + 8) before
  tilingAfter : HeapTiling memory (payloadEnd memory cluster) last after
  span : first ≤ last ∧ last % 3 = first % 3
  around : Around memory cluster before after lefts left right rights
  linkedLeft : Linked (next memory) (prev memory) (lefts ++ [left])
  linkedRight : Linked (next memory) (prev memory) (right :: rights)
  pinned : ∀ block ∈ freeOf memory before ++ freeOf memory after,
    dataFlags memory block = HB_Pinned

/-- A well-formed cluster seen around some of its blocks. -/
theorem WellFormed.surroundings
    (wellFormed : WellFormed memory cluster (before ++ old ++ after))
    (around : Around memory cluster before after lefts left right rights)
    (tilingBefore : HeapTiling memory first (cluster + 8) before)
    (tilingOld : HeapTiling memory last first old)
    (tilingAfter :
      HeapTiling memory (payloadEnd memory cluster) last after) :
    Surroundings memory cluster before after first last lefts left right
      rights := by
  have linked : Linked (next memory) (prev memory)
      (lefts ++ left :: (freeOf memory old ++ right :: rights)) := by
    have linked := wellFormed.linked
    rw [head_freeList, tail_freeList, freeOf_append, freeOf_append,
      ← List.cons_append, ← List.cons_append, around.leftNodes,
      List.append_assoc, around.rightNodes] at linked
    simpa using linked
  exact {
    start := wellFormed.start
    small := wellFormed.small
    ended := wellFormed.ended
    tilingBefore, tilingAfter, around
    span := tilingOld.span
    linkedLeft := linked.upTo
    linkedRight := linked.from_.suffix
      (List.suffix_append (left :: freeOf memory old) (right :: rights))
    pinned := by
      intro block member
      refine wellFormed.pinned block ?_
      simp only [freeOf_append, List.mem_append] at member ⊢
      tauto }

namespace Surroundings

variable (surroundings : Surroundings memory cluster before after first last
  lefts left right rights)

include surroundings

/-- Where the neighbours of the stretch lie. -/
theorem place :
    cluster + 8 ≤ first ∧ first % 3 = (cluster + 8) % 3 ∧
      first ≤ last ∧ last % 3 = (cluster + 8) % 3 ∧
      last ≤ payloadEnd memory cluster ∧
      (left = cluster + 2 ∨ cluster + 8 ≤ left ∧
        left % 3 = (cluster + 8) % 3 ∧ left + 3 ≤ first) ∧
      (right = cluster + 3 ∨ last ≤ right ∧
        right % 3 = (cluster + 8) % 3 ∧
        right + 3 ≤ payloadEnd memory cluster) := by
  have spanBefore := surroundings.tilingBefore.span
  have span := surroundings.span
  have spanAfter := surroundings.tilingAfter.span
  have leftPlace := surroundings.around.left_place surroundings.tilingBefore
  have rightPlace := surroundings.around.right_place surroundings.tilingAfter
    (by omega)
  omega

/-- Blocks around the stretch keep their identity when only the stretch and
the links into it are written. -/
theorem keepsIds
    (writes : WritesOnly memory memory' first last left right)
    {block : Nat}
    (member : block ∈ before ++ after) :
    memory' block = memory block := by
  have place := surroundings.place
  rcases List.mem_append.mp member with isBefore | isAfter
  · have := surroundings.tilingBefore.place isBefore
    exact writes block (by omega) (by omega) (by omega)
  · have := surroundings.tilingAfter.place isAfter
    exact writes block (by omega) (by omega) (by omega)

/-- The surroundings survive writes to the stretch and to the links into it. -/
theorem transport
    (writes : WritesOnly memory memory' first last left right) :
    Surroundings memory' cluster before after first last lefts left right
      rights := by
  have place := surroundings.place
  have tilingBefore := surroundings.tilingBefore
  have tilingAfter := surroundings.tilingAfter
  have around := surroundings.around
  have keeps {block : Nat} (member : block ∈ before ++ after) :=
    surroundings.keepsIds writes member
  have keepsBefore : ∀ block ∈ before, memory' block = memory block :=
    fun block member => keeps (by simp [member])
  have keepsAfter : ∀ block ∈ after, memory' block = memory block :=
    fun block member => keeps (by simp [member])
  have sameEnd : payloadEnd memory' cluster = payloadEnd memory cluster :=
    writes (cluster + 7) (by omega) (by omega) (by omega)
  have sameFreeBefore := freeOf_congr keepsBefore
  have sameFreeAfter := freeOf_congr keepsAfter
  refine {
    start := (writes (cluster + 6) (by omega) (by omega) (by omega)).trans
      surroundings.start
    small := by
      rw [sameEnd]
      exact surroundings.small
    ended := (writes (cluster + 4) (by omega) (by omega) (by omega)).trans
      surroundings.ended
    tilingBefore := tilingBefore.congr keepsBefore
    tilingAfter := by
      rw [sameEnd]
      exact tilingAfter.congr keepsAfter
    span := surroundings.span
    around := {
      leftNodes := by rw [sameFreeBefore, around.leftNodes]
      rightNodes := by rw [sameFreeAfter, around.rightNodes] }
    linkedLeft := ?_
    linkedRight := ?_
    pinned := ?_ }
  · refine surroundings.linkedLeft.congr ?_ ?_
    · intro node member
      rw [List.dropLast_concat] at member
      have nodePlace := around.lefts_place tilingBefore member
      exact writes _ (by omega) (by omega) (by omega)
    · intro node member
      rw [← around.leftNodes, List.tail_cons] at member
      have nodePlace := mem_freeOf_place tilingBefore member
      exact writes _ (by omega) (by omega) (by omega)
  · refine surroundings.linkedRight.congr ?_ ?_
    · intro node member
      rw [← around.rightNodes, List.dropLast_concat] at member
      have nodePlace := mem_freeOf_place tilingAfter member
      exact writes _ (by omega) (by omega) (by omega)
    · intro node member
      rw [List.tail_cons] at member
      have nodePlace := around.rights_place tilingAfter (by omega) member
      exact writes _ (by omega) (by omega) (by omega)
  · intro block member
    rw [sameFreeBefore, sameFreeAfter] at member
    have isBlock : block ∈ before ++ after := by
      simp only [List.mem_append, mem_freeOf] at member ⊢
      tauto
    rw [(fields_congr (keeps isBlock)).2.1]
    exact surroundings.pinned block member

/-- The invariant holds once the stretch is tiled and its free blocks are
linked to the neighbours. -/
theorem fill
    (tilingMid : HeapTiling memory last first mid)
    (linkedMid : Linked (next memory) (prev memory)
      (left :: freeOf memory mid ++ [right]))
    (pinnedMid : ∀ block ∈ freeOf memory mid,
      dataFlags memory block = HB_Pinned) :
    WellFormed memory cluster (before ++ mid ++ after) where
  start := surroundings.start
  small := surroundings.small
  tiling := Tiling.append_iff.mpr ⟨last,
    Tiling.append_iff.mpr ⟨first, surroundings.tilingBefore, tilingMid⟩,
    surroundings.tilingAfter⟩
  linked := by
    rw [freeOf_append, freeOf_append, head_freeList, tail_freeList,
      ← List.cons_append, ← List.cons_append, surroundings.around.leftNodes,
      List.append_assoc, List.append_assoc, List.append_assoc,
      surroundings.around.rightNodes]
    have whole : Linked (next memory) (prev memory)
        (lefts ++ left :: (freeOf memory mid ++ right :: rights)) := by
      refine List.isChain_split.mpr ⟨surroundings.linkedLeft, ?_⟩
      exact List.isChain_split.mpr ⟨linkedMid, surroundings.linkedRight⟩
    simpa using whole
  ended := surroundings.ended
  pinned := by
    intro block member
    simp only [freeOf_append, List.mem_append] at member
    rcases member with (isBefore | isMid) | isAfter
    · exact surroundings.pinned block (by simp [isBefore])
    · exact pinnedMid block isMid
    · exact surroundings.pinned block (by simp [isAfter])

end Surroundings

/-- Replacing consecutive blocks keeps the invariant when the new blocks tile
the same stretch and their free ones are linked to the neighbours. -/
theorem WellFormed.replace
    (wellFormed : WellFormed memory cluster (before ++ old ++ after))
    (around : Around memory cluster before after lefts left right rights)
    (tilingBefore : HeapTiling memory first (cluster + 8) before)
    (tilingOld : HeapTiling memory last first old)
    (tilingAfter :
      HeapTiling memory (payloadEnd memory cluster) last after)
    (writes : WritesOnly memory memory' first last left right)
    (tilingMid : HeapTiling memory' last first mid)
    (linkedMid : Linked (next memory') (prev memory')
      (left :: freeOf memory' mid ++ [right]))
    (pinnedMid : ∀ block ∈ freeOf memory' mid,
      dataFlags memory' block = HB_Pinned) :
    WellFormed memory' cluster (before ++ mid ++ after) :=
  ((wellFormed.surroundings around tilingBefore tilingOld
    tilingAfter).transport writes).fill tilingMid linkedMid pinnedMid

end Replace

end HeapCluster

end NanoClr
