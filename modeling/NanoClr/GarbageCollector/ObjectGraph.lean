import NanoClr.GarbageCollector.Mark

/-!
# The object graph

The blocks that are reached from the roots by the references that the types of
the blocks define, and the layout that a collection relies on: blocks that are
reached do not overlap in the words that the collector reads, and only objects
of the heap own other blocks.
-/

namespace NanoClr

open HeapBlock HeapCluster

/-- How many words of a block the collector reads. -/
def headerWords (memory : Memory) (block : Nat) : Nat :=
  match dataType memory block with
  | some .szArray | some .delegateHead => 5
  | some .delegateListHead => 6
  | _ => 3

theorem headerWords_bounds (memory : Memory) (block : Nat) :
    3 ≤ headerWords memory block ∧ headerWords memory block ≤ 6 := by
  unfold headerWords
  split <;> decide

/-- A block lies in the range that another block owns. -/
def IsField (memory : Memory) (owner block : Nat) : Prop :=
  ∃ index < (fieldRange memory owner).2,
    block = (fieldRange memory owner).1 + 3 * index

/-- A block that refers to nothing. -/
def IsLeaf (memory : Memory) (block : Nat) : Prop :=
  target memory block = 0 ∧ (fieldRange memory block).2 = 0 ∧
    isWeakDelegateList memory block = false

/-- An allocated block that is not an event. -/
def IsObject (heap : Heap) (block : Nat) : Prop :=
  isEvent heap.memory block = false ∧
    ∃ cluster ∈ heap.clusters, Allocated heap.memory cluster block

namespace GarbageCollector

/-- The blocks that a collection starts from through a pointer: they are
visited unless they are alive already. -/
def IsEntry (input : MarkInput) (block : Nat) : Prop :=
  block ≠ 0 ∧ (Root.single block ∈ input.roots ∨
    block ∈ input.finalizersAlive)

/-- The blocks of the ranges that a collection starts from. -/
def IsRootSlot (input : MarkInput) (block : Nat) : Prop :=
  ∃ lst num, Root.multiple lst num ∈ input.roots ∧ lst ≠ 0 ∧
    ∃ index < num, block = lst + 3 * index

/-- The blocks that are reached by the references that their types define. -/
inductive Reached (input : MarkInput) : Nat → Prop
  | entry {block : Nat} (isEntry : IsEntry input block) : Reached input block
  | slot {block : Nat} (isSlot : IsRootSlot input block) : Reached input block
  | field {owner block : Nat}
      (reached : Reached input owner)
      (isField : IsField input.memory owner block) :
      Reached input block
  | target {block : Nat}
      (reached : Reached input block)
      (nonzero : target input.memory block ≠ 0) :
      Reached input (target input.memory block)

/-- The layout of a heap before a collection. -/
structure GraphWellFormed (input : MarkInput) : Prop where
  /-- The payloads are tiled, and no object is marked. -/
  laid : HeapLaid input.heap
  unmarked : ∀ block, IsObject input.heap block →
    isAlive input.memory block = false
  /-- What is read of the blocks that are reached is in use and apart. -/
  inUse : ∀ block, Reached input block →
    ∀ offset < headerWords input.memory block,
      InUse input.heap (block + offset)
  apart : ∀ block other, Reached input block → Reached input other →
    block ≠ other →
      other + 3 ≤ block ∨ block + headerWords input.memory block ≤ other
  /-- Only objects own blocks, and weak delegate lists are objects. -/
  owners : ∀ block, Reached input block →
    0 < (fieldRange input.memory block).2 ∨
      isWeakDelegateList input.memory block = true →
    IsObject input.heap block
  /-- The list of weak delegate lists is outside the clusters and apart from
  everything that is reached. -/
  sentinel : input.weakDelegatesReachable ≠ 0
  sentinelOutside : ∀ cluster ∈ input.clusters, ∀ offset < 3,
    input.weakDelegatesReachable + offset < cluster ∨
      payloadEnd input.memory cluster ≤ input.weakDelegatesReachable + offset
  sentinelApart : ∀ block, Reached input block →
    input.weakDelegatesReachable + 3 ≤ block ∨
      block + headerWords input.memory block ≤ input.weakDelegatesReachable

/-- No pointer leads to a block that still carries a mark, unless that block
refers to nothing. -/
def NoStaleMarks (input : MarkInput) : Prop :=
  (∀ block, IsEntry input block →
    isAlive input.memory block = false ∨ IsLeaf input.memory block) ∧
  ∀ block, Reached input block → target input.memory block ≠ 0 →
    isAlive input.memory (target input.memory block) = false ∨
      IsLeaf input.memory (target input.memory block)

end GarbageCollector

end NanoClr
