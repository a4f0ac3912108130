import Mathlib.Algebra.Ring.Int.Defs
import Mathlib.Algebra.Ring.Nat
import Mathlib.Logic.Function.Basic
import Mathlib.Tactic.Common

/-!
# Heap blocks

Memory is a map from 4-byte word addresses to words.  A heap block takes three
words: its identity, with the data type, the flags and the size packed into
one word, and two words of data that the other structures overlay with links,
references and descriptors.
-/

namespace NanoClr

/-- Memory by word address. -/
abbrev Memory := Nat → Nat

/-- The data types that tag blocks. -/
inductive DataType where
  | void | boolean | i1 | u1 | char | i2 | u2 | i4 | u4 | r4 | i8 | u8 | r8
  | dateTime | timeSpan | string
  | object | classType | valueType | szArray | byRef
  | freeBlock | cachedBlock | assembly | weakClass | reflection | arrayByRef
  | delegateHead | delegateListHead | objectToEvent | binaryBlobHead
  | thread | subThread | stackFrame | timerHead
  | lockHead | lockOwnerHead | lockRequestHead | waitForObjectHead
  | finalizerHead | memoryStreamHead | memoryStreamData
  | serializerHead | serializerDuplicate | serializerState
  | endpointHead | ioPort
  deriving DecidableEq, Repr

namespace DataType

/-- All data types in the order of their codes; the codes after the endpoint
head leave room for the radio types. -/
def all : List (DataType × Nat) :=
  [ (.void, 0), (.boolean, 1), (.i1, 2), (.u1, 3), (.char, 4), (.i2, 5),
    (.u2, 6), (.i4, 7), (.u4, 8), (.r4, 9), (.i8, 10), (.u8, 11), (.r8, 12),
    (.dateTime, 13), (.timeSpan, 14), (.string, 15), (.object, 16),
    (.classType, 17), (.valueType, 18), (.szArray, 19), (.byRef, 20),
    (.freeBlock, 21), (.cachedBlock, 22), (.assembly, 23), (.weakClass, 24),
    (.reflection, 25), (.arrayByRef, 26), (.delegateHead, 27),
    (.delegateListHead, 28), (.objectToEvent, 29), (.binaryBlobHead, 30),
    (.thread, 31), (.subThread, 32), (.stackFrame, 33), (.timerHead, 34),
    (.lockHead, 35), (.lockOwnerHead, 36), (.lockRequestHead, 37),
    (.waitForObjectHead, 38), (.finalizerHead, 39), (.memoryStreamHead, 40),
    (.memoryStreamData, 41), (.serializerHead, 42), (.serializerDuplicate, 43),
    (.serializerState, 44), (.endpointHead, 45), (.ioPort, 49) ]

/-- The code that a block's identity holds. -/
def code (dataType : DataType) : Nat :=
  (all.lookup dataType).getD 0

/-- The data type of a code, if the code is one. -/
def ofCode (code : Nat) : Option DataType :=
  (all.find? fun entry => entry.2 == code).map Prod.fst

theorem code_lt (dataType : DataType) : dataType.code < 256 := by
  cases dataType <;> decide

@[simp] theorem ofCode_code (dataType : DataType) :
    ofCode dataType.code = some dataType := by
  cases dataType <;> rfl

end DataType

namespace HeapBlock

/-! ## Flags -/

/-- The flag of a block that was reached. -/
def HB_Alive : Nat := 0x01

/-- The flag of a block of the event cache. -/
def HB_Event : Nat := 0x04

/-- The flag of a block that is not moved. -/
def HB_Pinned : Nat := 0x08

/-- The flag for extracting a block of zeros. -/
def HB_InitializeToZero : Nat := 0x100

/-- The most heap blocks of one block. -/
def HB_MaxSize : Nat := 0xFFFF

/-- The bytes of a heap block. -/
def sizeofHeapBlock : UInt32 := 12

/-- The heap blocks that hold so many bytes. -/
def CONVERTFROMSIZETOHEAPBLOCKS (size : UInt32) : UInt32 :=
  (size + (sizeofHeapBlock - 1)) / sizeofHeapBlock

/-- The identity word with the three fields cut to their widths. -/
def rawId (dataType flags size : Nat) : Nat :=
  dataType % 0x100 + flags % 0x100 * 0x100 + size % 0x10000 * 0x10000

/-- The data type field of a block. -/
def dataTypeCode (memory : Memory) (block : Nat) : Nat :=
  memory block % 0x100

/-- The data type of a block. -/
def dataType (memory : Memory) (block : Nat) : Option DataType :=
  DataType.ofCode (dataTypeCode memory block)

/-- The flags of a block. -/
def dataFlags (memory : Memory) (block : Nat) : Nat :=
  memory block / 0x100 % 0x100

/-- The size of a block in heap blocks. -/
def dataSize (memory : Memory) (block : Nat) : Nat :=
  memory block / 0x10000 % 0x10000

/-- The size of a block in words. -/
def words (memory : Memory) (block : Nat) : Nat :=
  3 * dataSize memory block

/-- A block has one of the flags. -/
def isFlagSet (memory : Memory) (block flags : Nat) : Bool :=
  dataFlags memory block &&& flags != 0

/-- `IsAlive`. -/
def isAlive (memory : Memory) (block : Nat) : Bool :=
  isFlagSet memory block HB_Alive

/-- `IsEvent`. -/
def isEvent (memory : Memory) (block : Nat) : Bool :=
  isFlagSet memory block HB_Event

/-- The identity word of a block is changed. -/
def setDataId (memory : Memory) (block id : Nat) : Memory :=
  Function.update memory block id

/-- A block gets some flags. -/
def setFlags (memory : Memory) (block flags : Nat) : Memory :=
  setDataId memory block (rawId (dataTypeCode memory block)
    (dataFlags memory block ||| flags) (dataSize memory block))

/-- A block loses some flags. -/
def resetFlags (memory : Memory) (block flags : Nat) : Memory :=
  setDataId memory block (rawId (dataTypeCode memory block)
    (dataFlags memory block &&& (0xFF ^^^ flags)) (dataSize memory block))

/-- `MarkAlive`. -/
def markAlive (memory : Memory) (block : Nat) : Memory :=
  setFlags memory block HB_Alive

/-- `MarkDead`. -/
def markDead (memory : Memory) (block : Nat) : Memory :=
  resetFlags memory block HB_Alive

/-- `InitializeToZero`: everything after the identity word is cleared. -/
def initializeToZero (memory : Memory) (block : Nat) : Memory := fun address =>
  if block < address ∧ address < block + words memory block then 0
  else memory address

end HeapBlock

open HeapBlock

/-! ## Nodes -/

/-- The forward link of a node. -/
def next (memory : Memory) (node : Nat) : Nat := memory (node + 1)

/-- The backward link of a node. -/
def prev (memory : Memory) (node : Nat) : Nat := memory (node + 2)

/-- The link forward of a node is changed. -/
def setNext (memory : Memory) (node target : Nat) : Memory :=
  Function.update memory (node + 1) target

/-- The link backward of a node is changed. -/
def setPrev (memory : Memory) (node target : Nat) : Memory :=
  Function.update memory (node + 2) target

/-- Both data words are cleared. -/
def clearData (memory : Memory) (block : Nat) : Memory :=
  setPrev (setNext memory block 0) block 0

/-- `RemoveFromList`: the neighbours of a node are linked to each other; the
node keeps its own links. -/
def removeFromList (memory : Memory) (node : Nat) : Memory :=
  let before := prev memory node
  let after := next memory node
  let memory := if before ≠ 0 then setNext memory before after else memory
  if after ≠ 0 then setPrev memory after before else memory

/-- `Unlink`: the node is removed and its own links are cleared. -/
def unlink (memory : Memory) (node : Nat) : Memory :=
  setNext (setPrev (removeFromList memory node) node 0) node 0

/-- `Insert`: the node is put between two neighbours. -/
def insertNode (memory : Memory) (before after node : Nat) : Memory :=
  let memory := setNext memory node after
  let memory := setPrev memory node before
  let memory := setPrev memory after node
  setNext memory before node

/-- `InsertBeforeNode`. -/
def insertBeforeNode (memory : Memory) (target node : Nat) : Memory :=
  if target ≠ 0 ∧ node ≠ 0 ∧ target ≠ node then
    let memory := removeFromList memory node
    insertNode memory (prev memory target) target node
  else memory

namespace HeapBlock

/-! ## The fields of a packed identity -/

@[simp] theorem rawId_dataType (dataType flags size : Nat) :
    rawId dataType flags size % 0x100 = dataType % 0x100 := by
  simp only [rawId]
  omega

@[simp] theorem rawId_flags (dataType flags size : Nat) :
    rawId dataType flags size / 0x100 % 0x100 = flags % 0x100 := by
  simp only [rawId]
  omega

@[simp] theorem rawId_size (dataType flags size : Nat) :
    rawId dataType flags size / 0x10000 % 0x10000 = size % 0x10000 := by
  simp only [rawId]
  omega

theorem dataSize_lt (memory : Memory) (block : Nat) :
    dataSize memory block < 0x10000 :=
  Nat.mod_lt _ (by decide)

theorem dataFlags_lt (memory : Memory) (block : Nat) :
    dataFlags memory block < 0x100 :=
  Nat.mod_lt _ (by decide)

/-- The fields of a block depend on its identity word only. -/
theorem fields_congr
    {memory memory' : Memory}
    {block : Nat}
    (same : memory' block = memory block) :
    dataType memory' block = dataType memory block ∧
      dataFlags memory' block = dataFlags memory block ∧
      dataSize memory' block = dataSize memory block := by
  simp only [dataType, dataTypeCode, dataFlags, dataSize, same, and_self]

/-! ## Reading back a written identity -/

section SetDataId

variable (memory : Memory) (block other id : Nat)

theorem setDataId_same : setDataId memory block id block = id := by
  simp [setDataId]

theorem setDataId_other (different : other ≠ block) :
    setDataId memory block id other = memory other := by
  simp [setDataId, different]

variable (kind : DataType) (flags size : Nat)

@[simp] theorem dataType_setDataId :
    dataType (setDataId memory block (rawId kind.code flags size)) block =
      some kind := by
  simp [dataType, dataTypeCode, setDataId_same,
    Nat.mod_eq_of_lt kind.code_lt]

@[simp] theorem dataFlags_setDataId :
    dataFlags (setDataId memory block (rawId kind.code flags size)) block =
      flags % 0x100 := by
  simp [dataFlags, setDataId_same]

@[simp] theorem dataSize_setDataId :
    dataSize (setDataId memory block (rawId kind.code flags size)) block =
      size % 0x10000 := by
  simp [dataSize, setDataId_same]

end SetDataId

/-! ## Changing flags -/

section Flags

attribute [local simp] setFlags resetFlags dataType dataTypeCode dataSize

variable (memory : Memory) (block flags : Nat)

@[simp] theorem dataType_setFlags :
    dataType (setFlags memory block flags) block = dataType memory block := by
  simp [dataType, dataTypeCode, setFlags, setDataId_same]

@[simp] theorem dataSize_setFlags :
    dataSize (setFlags memory block flags) block = dataSize memory block := by
  simp [dataSize, setFlags, setDataId_same]

@[simp] theorem dataType_resetFlags :
    dataType (resetFlags memory block flags) block = dataType memory block := by
  simp [dataType, dataTypeCode, resetFlags, setDataId_same]

@[simp] theorem dataSize_resetFlags :
    dataSize (resetFlags memory block flags) block = dataSize memory block := by
  simp [dataSize, resetFlags, setDataId_same]

theorem setFlags_other (other : Nat) (different : other ≠ block) :
    setFlags memory block flags other = memory other := by
  simp [setFlags, setDataId_other, different]

theorem resetFlags_other (other : Nat) (different : other ≠ block) :
    resetFlags memory block flags other = memory other := by
  simp [resetFlags, setDataId_other, different]

theorem isAlive_markAlive : isAlive (markAlive memory block) block = true := by
  have bits : ∀ flags < 0x100,
      ((flags ||| HB_Alive) % 0x100 &&& HB_Alive != 0) = true := by
    decide +kernel
  rw [isAlive, isFlagSet, markAlive, setFlags, dataFlags, setDataId_same,
    rawId_flags]
  exact bits _ (dataFlags_lt memory block)

end Flags

end HeapBlock

end NanoClr
