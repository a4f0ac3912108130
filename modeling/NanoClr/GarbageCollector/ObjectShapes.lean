import NanoClr.Heap.HeapCluster

/-!
# The references of a heap block

How the collector reads the blocks it marks.  A block either refers to one
other block, which is visited unless it is alive already, or it owns a range of
blocks (fields, elements, delegates) that are all visited.  A weak delegate
list refers to nothing; it is put on the list of reachable weak delegate lists
instead.
-/

namespace NanoClr

open HeapBlock

/-! ## Fields of the block types -/

/-- `Dereference`, and `Array` of a reference to an array element. -/
def dereference (memory : Memory) (block : Nat) : Nat := memory (block + 1)

namespace HeapBlockArray

/-- `m_numOfElements` of an array. -/
def numOfElements (memory : Memory) (array : Nat) : Nat := memory (array + 3)

/-- `m_fReference` of an array. -/
def fReference (memory : Memory) (array : Nat) : Bool :=
  memory (array + 4) / 0x10000 % 0x100 != 0

/-- The first element of an array of references. -/
def firstElement (array : Nat) : Nat := array + 5

end HeapBlockArray

namespace HeapBlockDelegate

/-- The block `m_object` inside a delegate. -/
def object (delegate : Nat) : Nat := delegate + 5

end HeapBlockDelegate

namespace HeapBlockDelegateList

/-- The flag of a weak list. -/
def c_Weak : Nat := 0x00000001

/-- `m_length` of a list of delegates. -/
def length (memory : Memory) (list : Nat) : Nat := memory (list + 4)

/-- `m_flags` of a list of delegates. -/
def flags (memory : Memory) (list : Nat) : Nat := memory (list + 5)

/-- The first entry of a list of delegates. -/
def delegates (list : Nat) : Nat := list + 6

/-- The list of delegates is weak. -/
def isWeak (memory : Memory) (list : Nat) : Bool :=
  flags memory list &&& c_Weak != 0

end HeapBlockDelegateList

/-- A weak delegate list. -/
def isWeakDelegateList (memory : Memory) (block : Nat) : Bool :=
  dataType memory block = some .delegateListHead ∧
    HeapBlockDelegateList.isWeak memory block

/-! ## References -/

/-- The single block that a block refers to, or zero. -/
def target (memory : Memory) (block : Nat) : Nat :=
  match dataType memory block with
  | some .object | some .byRef | some .arrayByRef => dereference memory block
  | _ => 0

/-- The first block of the range that a block owns, and its length. -/
def fieldRange (memory : Memory) (block : Nat) : Nat × Nat :=
  match dataType memory block with
  | some .classType | some .valueType =>
      (block + 3, dataSize memory block - 1)
  | some .szArray =>
      if HeapBlockArray.fReference memory block then
        (HeapBlockArray.firstElement block,
          HeapBlockArray.numOfElements memory block)
      else (0, 0)
  | some .delegateHead => (HeapBlockDelegate.object block, 1)
  | some .delegateListHead =>
      if HeapBlockDelegateList.isWeak memory block then (0, 0)
      else (HeapBlockDelegateList.delegates block,
        HeapBlockDelegateList.length memory block)
  | _ => (0, 0)

/-- `LinkAtBack`. -/
def linkAtBack (memory : Memory) (list node : Nat) : Memory :=
  insertBeforeNode memory (tail list) node

/-- Mark a block that is visited; a weak delegate list is linked. -/
def visitMemory (memory : Memory) (weakDelegates block : Nat) : Memory :=
  let memory := markAlive memory block
  if isWeakDelegateList memory block then
    linkAtBack (clearData memory block) weakDelegates block
  else memory

/-- Visit a block; the range to visit next is returned. -/
def visit (memory : Memory) (weakDelegates block : Nat) :
    Memory × Nat × Nat :=
  let memory := visitMemory memory weakDelegates block
  let sub := target memory block
  if sub ≠ 0 ∧ isAlive memory sub = false then (memory, sub, 1)
  else (memory, fieldRange memory block)

theorem visit_fst (memory : Memory) (weakDelegates block : Nat) :
    (visit memory weakDelegates block).1 =
      visitMemory memory weakDelegates block := by
  unfold visit
  simp only
  split <;> rfl

/-! ## Visits of single shapes -/

section Visit

variable (memory : Memory) (weakDelegates block : Nat)

@[simp] theorem dataType_markAlive :
    dataType (markAlive memory block) block = dataType memory block :=
  dataType_setFlags memory block HB_Alive

@[simp] theorem dataSize_markAlive :
    dataSize (markAlive memory block) block = dataSize memory block :=
  dataSize_setFlags memory block HB_Alive

/-- The mark changes nothing but the identity word of the block. -/
theorem markAlive_other (other : Nat) (different : other ≠ block) :
    markAlive memory block other = memory other :=
  setFlags_other memory block HB_Alive other different

/-- An object refers to all its fields. -/
theorem visit_classType (isClass : dataType memory block = some .classType) :
    visit memory weakDelegates block =
      (markAlive memory block, block + 3, dataSize memory block - 1) := by
  simp [visit, visitMemory, isWeakDelegateList, target, fieldRange, isClass]

/-- A reference to a block that is not alive is followed. -/
theorem visit_object
    (isObject : dataType memory block = some .object)
    (nonzero : memory (block + 1) ≠ 0)
    (different : memory (block + 1) ≠ block)
    (dead : isAlive memory (memory (block + 1)) = false) :
    visit memory weakDelegates block =
      (markAlive memory block, memory (block + 1), 1) := by
  have same : isAlive (markAlive memory block) (memory (block + 1)) =
      isAlive memory (memory (block + 1)) := by
    rw [isAlive, isFlagSet, isAlive, isFlagSet,
      (fields_congr (markAlive_other memory block _ different)).2.1]
  have targetIs : target (markAlive memory block) block =
      memory (block + 1) := by
    simp [target, isObject, dereference, markAlive_other]
  simp [visit, visitMemory, isWeakDelegateList, isObject, targetIs, nonzero, same,
    dead]

end Visit

end NanoClr
