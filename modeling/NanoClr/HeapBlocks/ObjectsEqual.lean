import NanoClr.Support.ComputeCRC
import NanoClr.TypeSystem.ResolveLink

/-!
# Equality of heap blocks

`ObjectsEqual` compares two heap blocks: a value type field by field, a
reference by what it refers to, a number by the bytes of its type.  Fuel
stands for the depth of the native stack; whatever a comparison finds with
some fuel, it finds with more.
-/

namespace NanoClr

namespace HeapBlocks

/-! ## Blocks in memory -/

/-- `DataType`. -/
def dataTypeAt (memory : Bytes) (ptr : Nat) : Option DataType :=
  DataType.ofCode (memory ptr).toNat

/-- `DataSize`: the heap blocks that an object takes. -/
def dataSizeAt (memory : Bytes) (ptr : Nat) : Nat :=
  readUInt16 memory (ptr + 2)

/-- `DataByRefConst`: where the eight data bytes of a block are. -/
def dataOf (ptr : Nat) : Nat := ptr + 4

/-- The object that a block refers to. -/
def dereference (memory : Bytes) (ptr : Nat) : Nat :=
  readUInt32 memory (dataOf ptr)

/-- `ObjectCls().m_data`. -/
def objectCls (memory : Bytes) (ptr : Nat) : Nat :=
  readUInt32 memory (dataOf ptr)

/-- The block behind a block. -/
def nextBlock (ptr : Nat) : Nat := ptr + 12

/-- The block of a field of an object. -/
def fieldOf (ptr index : Nat) : Nat := ptr + 12 * (index + 1)

/-- The first bytes at two addresses are the same. -/
def SameBytes (memory : Bytes) (left right size : Nat) : Prop :=
  ∀ index < size, memory (left + index) = memory (right + index)

instance (memory : Bytes) (left right size : Nat) :
    Decidable (SameBytes memory left right size) :=
  inferInstanceAs (Decidable (∀ index < size, _))

/-- The arrays, with their elements behind the header. -/
def m_numOfElements (memory : Bytes) (ptr : Nat) : Nat :=
  readUInt32 memory (ptr + 12)

/-- `m_typeOfElement` of an array. -/
def m_typeOfElement (memory : Bytes) (ptr : Nat) : UInt8 := memory (ptr + 16)

/-- `m_sizeOfElement` of an array. -/
def m_sizeOfElement (memory : Bytes) (ptr : Nat) : UInt8 := memory (ptr + 17)

/-- `m_fReference` of an array. -/
def m_fReference (memory : Bytes) (ptr : Nat) : UInt8 := memory (ptr + 18)

/-- `GetFirstElement` of an array. -/
def getFirstElement (ptr : Nat) : Nat := ptr + 20

/-- The bytes of the elements of an array. -/
def sizeOfElements (memory : Bytes) (ptr : Nat) : Nat :=
  m_numOfElements memory ptr * (m_sizeOfElement memory ptr).toNat % 2 ^ 32

/-- `m_sizeInBits` of the types that are no references. -/
def m_sizeInBits : DataType → Nat
  | .boolean => 1
  | .i1 | .u1 => 8
  | .char | .i2 | .u2 => 16
  | .i4 | .u4 | .r4 => 32
  | .i8 | .u8 | .r8 | .dateTime | .timeSpan => 64
  | _ => 0

/-- The bytes that `ObjectsEqual` compares. -/
def comparedBytes (dataType : DataType) : Nat := (m_sizeInBits dataType + 7) / 8

/-! ## The comparison -/

/-- The loop over the fields of two value types. -/
def fieldsEqual (equal : Nat → Nat → Option Bool) :
    Nat → Nat → Nat → Option Bool
  | 0, _, _ => some true
  | num + 1, objLeft, objRight => do
      if ← equal (nextBlock objLeft) (nextBlock objRight) then
        fieldsEqual equal num (nextBlock objLeft) (nextBlock objRight)
      else some false

/-- The comparison of two arrays. -/
def arraysEqual (memory : Bytes) (objLeft objRight : Nat) : Bool :=
  m_numOfElements memory objLeft = m_numOfElements memory objRight &&
    m_sizeOfElement memory objLeft = m_sizeOfElement memory objRight &&
    m_typeOfElement memory objLeft = m_typeOfElement memory objRight &&
    m_fReference memory objLeft = 0 &&
    decide (SameBytes memory (getFirstElement objLeft)
      (getFirstElement objRight) (sizeOfElements memory objLeft))

/-- `ObjectsEqual`, with a bound on its depth. -/
def ObjectsEqual (memory : Bytes) : Nat → Nat → Nat → Bool → Option Bool
  | 0, _, _, _ => none
  | fuel + 1, pArgLeft, pArgRight, fSameReference =>
      if pArgLeft = pArgRight then some true
      else if memory pArgLeft = memory pArgRight then
        match dataTypeAt memory pArgLeft with
        | none => none
        | some .valueType =>
            if objectCls memory pArgLeft = objectCls memory pArgRight then
              fieldsEqual
                (fun objLeft objRight =>
                  ObjectsEqual memory fuel objLeft objRight false)
                (sub32 (dataSizeAt memory pArgLeft) 1) pArgLeft pArgRight
            else some false
        | some .object =>
            let objLeft := dereference memory pArgLeft
            let objRight := dereference memory pArgRight
            if objLeft = objRight then some true
            else if objLeft ≠ 0 ∧ objRight ≠ 0 ∧
                (fSameReference = false ∨
                  dataTypeAt memory objLeft = some .reflection) then
              ObjectsEqual memory fuel objLeft objRight false
            else some false
        | some .szArray =>
            some (!fSameReference && arraysEqual memory pArgLeft pArgRight)
        | some .reflection =>
            some (decide (SameBytes memory (dataOf pArgLeft)
              (dataOf pArgRight) 8))
        | some dataType =>
            some (!fSameReference && !TypeSystem.c_Reference dataType &&
              decide (SameBytes memory (dataOf pArgLeft) (dataOf pArgRight)
                (comparedBytes dataType)))
      else some false

/-! ## Memory with objects -/

/-- The element types whose arrays hold no heap blocks. -/
def c_Numeric : DataType → Bool
  | .boolean | .i1 | .u1 | .char | .i2 | .u2 | .i4 | .u4 | .r4
  | .i8 | .u8 | .r8 => true
  | _ => false

/-- Memory whose blocks are as the runtime makes them.  A delegate, an event
source or a reference to another reference is made after the block that it
refers to, hence the ranks. -/
structure BlockMemory where
  bytes : Bytes
  m_totalFields : Nat → Nat
  /-- Whether the data type of a class is an optimized value type. -/
  optimizedValueType : Nat → Bool
  IsBlock : Nat → Prop
  rank : Nat → Nat
  nonNull : ∀ {ptr}, IsBlock ptr → ptr ≠ 0
  typed : ∀ {ptr}, IsBlock ptr → (dataTypeAt bytes ptr).isSome
  referent : ∀ {ptr}, IsBlock ptr → dataTypeAt bytes ptr = some .object →
    dereference bytes ptr ≠ 0 →
    IsBlock (dereference bytes ptr) ∧ rank (dereference bytes ptr) < rank ptr
  text : ∀ {ptr}, IsBlock ptr → dataTypeAt bytes ptr = some .string →
    ∃ length, bytes (readUInt32 bytes (dataOf ptr) + length) = 0
  classFields : ∀ {ptr index}, IsBlock ptr →
    dataTypeAt bytes ptr = some .classType →
    index < m_totalFields (objectCls bytes ptr) → IsBlock (fieldOf ptr index)
  valueFields : ∀ {ptr index}, IsBlock ptr →
    dataTypeAt bytes ptr = some .valueType →
    index + 1 < dataSizeAt bytes ptr → IsBlock (fieldOf ptr index)
  /-- A boxed value of an optimized type has one field for the value. -/
  sized : ∀ {ptr}, IsBlock ptr → dataTypeAt bytes ptr = some .valueType →
    dataSizeAt bytes ptr =
      (if optimizedValueType (objectCls bytes ptr) then 1
      else m_totalFields (objectCls bytes ptr)) + 1
  optimized : ∀ {cls}, optimizedValueType cls → m_totalFields cls ≤ 1
  elements : ∀ {ptr}, IsBlock ptr → dataTypeAt bytes ptr = some .szArray →
    (m_fReference bytes ptr = 0 ↔
      (DataType.ofCode (m_typeOfElement bytes ptr).toNat).any c_Numeric)
  delegate : ∀ {ptr}, IsBlock ptr →
    dataTypeAt bytes ptr = some .delegateHead →
    IsBlock (ptr + 20) ∧ rank (ptr + 20) < rank ptr
  event : ∀ {ptr link}, IsBlock ptr →
    dataTypeAt bytes ptr = some .objectToEvent →
    link = ptr + 12 ∨ link = ptr + 16 → readUInt32 bytes link ≠ 0 →
    IsBlock (readUInt32 bytes link) ∧ rank (readUInt32 bytes link) < rank ptr

namespace BlockMemory

/-- A block of a memory. -/
def Block (heap : BlockMemory) := { ptr : Nat // heap.IsBlock ptr }

/-- The blocks that `ObjectsEqual` finds equal. -/
def Equal
    (heap : BlockMemory)
    (fSameReference : Bool)
    (left right : heap.Block) : Prop :=
  ∃ fuel, ObjectsEqual heap.bytes fuel left.val right.val fSameReference =
    some true

end BlockMemory

/-! ## What equal blocks share -/

/-- What the comparison of two blocks of one type at different addresses asks
for. -/
def EqualData
    (memory : Bytes)
    (equal : Nat → Nat → Prop)
    (fSameReference : Bool)
    (left right : Nat) : DataType → Prop
  | .valueType =>
      objectCls memory left = objectCls memory right ∧
        ∀ index < sub32 (dataSizeAt memory left) 1,
          equal (fieldOf left index) (fieldOf right index)
  | .object =>
      dereference memory left = dereference memory right ∨
        (dereference memory left ≠ 0 ∧ dereference memory right ≠ 0 ∧
          (fSameReference = false ∨
            dataTypeAt memory (dereference memory left) = some .reflection)) ∧
          equal (dereference memory left) (dereference memory right)
  | .szArray => fSameReference = false ∧ arraysEqual memory left right
  | .reflection => SameBytes memory (dataOf left) (dataOf right) 8
  | dataType =>
      fSameReference = false ∧ TypeSystem.c_Reference dataType = false ∧
        SameBytes memory (dataOf left) (dataOf right) (comparedBytes dataType)

theorem fieldOf_nextBlock (ptr index : Nat) :
    fieldOf (nextBlock ptr) index = fieldOf ptr (index + 1) := by
  simp only [fieldOf, nextBlock]
  omega

section Fields

variable {equal : Nat → Nat → Option Bool}

theorem fieldsEqual_iff (num left right : Nat) :
    fieldsEqual equal num left right = some true ↔
      ∀ index < num,
        equal (fieldOf left index) (fieldOf right index) = some true := by
  induction num generalizing left right with
  | zero => simp [fieldsEqual]
  | succ num inductionHypothesis =>
      have step : fieldsEqual equal (num + 1) left right = some true ↔
          equal (nextBlock left) (nextBlock right) = some true ∧
            fieldsEqual equal num (nextBlock left) (nextBlock right) =
              some true := by
        cases answer : equal (nextBlock left) (nextBlock right) with
        | none => simp [fieldsEqual, answer]
        | some found => cases found <;> simp [fieldsEqual, answer]
      rw [step, inductionHypothesis]
      simp only [fieldOf_nextBlock]
      constructor
      · rintro ⟨first, rest⟩ index below
        cases index with
        | zero => exact first
        | succ index => exact rest index (Nat.lt_of_succ_lt_succ below)
      · intro all
        exact ⟨all 0 (Nat.succ_pos num), fun index below =>
          all (index + 1) (Nat.succ_lt_succ below)⟩

end Fields

section Comparison

attribute [local simp] ObjectsEqual EqualData

variable {memory : Bytes} {left right fuel : Nat} {fSameReference : Bool}

/-- What a comparison finds equal. -/
theorem objectsEqual_iff :
    ObjectsEqual memory (fuel + 1) left right fSameReference = some true ↔
      left = right ∨ (memory left = memory right ∧
        ∃ dataType, dataTypeAt memory left = some dataType ∧
          EqualData memory
            (fun objLeft objRight =>
              ObjectsEqual memory fuel objLeft objRight false = some true)
            fSameReference left right dataType) := by
  rw [ObjectsEqual]
  by_cases same : left = right
  · simp [same]
  by_cases sameType : memory left = memory right
  · simp only [same, sameType, if_true, if_false, false_or, true_and]
    cases type : dataTypeAt memory left with
    | none => simp
    | some dataType =>
        simp only [Option.some.injEq, exists_eq_left']
        cases dataType with
        | valueType =>
            by_cases sameClass :
              objectCls memory left = objectCls memory right <;>
            simp [EqualData, sameClass, fieldsEqual_iff]
        | object =>
            by_cases sameObject :
              dereference memory left = dereference memory right
            · simp [EqualData, sameObject]
            · simp only [EqualData, sameObject, if_false, false_or]
              split <;> simp_all
        | _ => simp [EqualData, and_assoc]
  · simp [same, sameType]

theorem dataTypeAt_congr (same : memory left = memory right) :
    dataTypeAt memory left = dataTypeAt memory right := by
  rw [dataTypeAt, dataTypeAt, same]

end Comparison

theorem sameType_of_objectsEqual
    {memory : Bytes}
    {fuel left right : Nat}
    {fSameReference : Bool}
    (found : ObjectsEqual memory fuel left right fSameReference =
      some true) :
    memory left = memory right := by
  cases fuel with
  | zero => simp [ObjectsEqual] at found
  | succ fuel =>
      cases objectsEqual_iff.mp found with
      | inl same => rw [same]
      | inr found => exact found.1

/-- The comparison of the parts may find more. -/
theorem EqualData.mono
    {memory : Bytes}
    {equal equal' : Nat → Nat → Prop}
    {fSameReference : Bool}
    {left right : Nat}
    {dataType : DataType}
    (more : ∀ objLeft objRight,
      equal objLeft objRight → equal' objLeft objRight)
    (data : EqualData memory equal fSameReference left right dataType) :
    EqualData memory equal' fSameReference left right dataType := by
  cases dataType with
  | valueType =>
      exact ⟨data.1, fun index below => more _ _ (data.2 index below)⟩
  | object =>
      cases data with
      | inl same => exact Or.inl same
      | inr found => exact Or.inr ⟨found.1, more _ _ found.2⟩
  | _ => exact data

theorem objectsEqual_succ
    {memory : Bytes}
    {fuel left right : Nat}
    {fSameReference : Bool}
    (found : ObjectsEqual memory fuel left right fSameReference =
      some true) :
    ObjectsEqual memory (fuel + 1) left right fSameReference = some true := by
  induction fuel generalizing left right fSameReference with
  | zero => simp [ObjectsEqual] at found
  | succ fuel inductionHypothesis =>
      rw [objectsEqual_iff] at found ⊢
      cases found with
      | inl same => exact Or.inl same
      | inr found =>
          obtain ⟨sameType, dataType, type, data⟩ := found
          have more := EqualData.mono
            (fun _ _ => inductionHypothesis) data
          exact Or.inr ⟨sameType, dataType, type, more⟩

/-- What is found equal stays so with more fuel. -/
theorem objectsEqual_mono
    {memory : Bytes}
    {fuel fuel' left right : Nat}
    {fSameReference : Bool}
    (enough : fuel ≤ fuel')
    (found : ObjectsEqual memory fuel left right fSameReference =
      some true) :
    ObjectsEqual memory fuel' left right fSameReference = some true := by
  induction enough with
  | refl => exact found
  | step _ inductionHypothesis => exact objectsEqual_succ inductionHypothesis

/-! ## An equivalence -/

theorem SameBytes.symm
    {memory : Bytes}
    {left right size : Nat}
    (same : SameBytes memory left right size) :
    SameBytes memory right left size :=
  fun index below => (same index below).symm

theorem SameBytes.trans
    {memory : Bytes}
    {left middle right size : Nat}
    (first : SameBytes memory left middle size)
    (second : SameBytes memory middle right size) :
    SameBytes memory left right size :=
  fun index below => (first index below).trans (second index below)

namespace BlockMemory

variable {heap : BlockMemory}

/-- Value types of one class have the same fields. -/
theorem sameSize
    {left right : Nat}
    (leftBlock : heap.IsBlock left)
    (rightBlock : heap.IsBlock right)
    (leftType : dataTypeAt heap.bytes left = some .valueType)
    (rightType : dataTypeAt heap.bytes right = some .valueType)
    (sameClass : objectCls heap.bytes left = objectCls heap.bytes right) :
    dataSizeAt heap.bytes left = dataSizeAt heap.bytes right := by
  rw [heap.sized leftBlock leftType, heap.sized rightBlock rightType,
    sameClass]

/-- The loop over the fields runs once for each of them. -/
theorem fieldCount
    {ptr : Nat}
    (block : heap.IsBlock ptr)
    (type : dataTypeAt heap.bytes ptr = some .valueType) :
    sub32 (dataSizeAt heap.bytes ptr) 1 + 1 = dataSizeAt heap.bytes ptr := by
  have below := readUInt16_lt heap.bytes (ptr + 2)
  have positive := heap.sized block type
  unfold sub32
  unfold dataSizeAt at positive ⊢
  omega

theorem fieldBlock
    {ptr index : Nat}
    (block : heap.IsBlock ptr)
    (type : dataTypeAt heap.bytes ptr = some .valueType)
    (below : index < sub32 (dataSizeAt heap.bytes ptr) 1) :
    heap.IsBlock (fieldOf ptr index) := by
  apply heap.valueFields block type
  have count := fieldCount block type
  omega

/-- Arrays of one element type both hold references or both do not. -/
theorem sameReference
    {left right : Nat}
    (leftBlock : heap.IsBlock left)
    (rightBlock : heap.IsBlock right)
    (leftType : dataTypeAt heap.bytes left = some .szArray)
    (rightType : dataTypeAt heap.bytes right = some .szArray)
    (sameElement : m_typeOfElement heap.bytes left =
      m_typeOfElement heap.bytes right) :
    m_fReference heap.bytes left = 0 ↔ m_fReference heap.bytes right = 0 := by
  rw [heap.elements leftBlock leftType, heap.elements rightBlock rightType,
    sameElement]

/-- Two equal arrays, part by part. -/
theorem arraysEqual_iff (memory : Bytes) (left right : Nat) :
    arraysEqual memory left right = true ↔
      m_numOfElements memory left = m_numOfElements memory right ∧
        m_sizeOfElement memory left = m_sizeOfElement memory right ∧
        m_typeOfElement memory left = m_typeOfElement memory right ∧
        m_fReference memory left = 0 ∧
        SameBytes memory (getFirstElement left) (getFirstElement right)
          (sizeOfElements memory left) := by
  simp [arraysEqual, and_assoc]

theorem arraysEqual_symm
    {left right : Nat}
    (leftBlock : heap.IsBlock left)
    (rightBlock : heap.IsBlock right)
    (leftType : dataTypeAt heap.bytes left = some .szArray)
    (rightType : dataTypeAt heap.bytes right = some .szArray)
    (equal : arraysEqual heap.bytes left right = true) :
    arraysEqual heap.bytes right left = true := by
  rw [arraysEqual_iff] at equal ⊢
  obtain ⟨sameNumber, sameSize, sameType, noReference, same⟩ := equal
  have sizes : sizeOfElements heap.bytes right =
      sizeOfElements heap.bytes left := by
    rw [sizeOfElements, sizeOfElements, sameNumber, sameSize]
  refine ⟨sameNumber.symm, sameSize.symm, sameType.symm, ?_, ?_⟩
  · exact (sameReference leftBlock rightBlock leftType rightType
      sameType).mp noReference
  · rw [sizes]
    exact same.symm

theorem arraysEqual_trans
    {memory : Bytes}
    {left middle right : Nat}
    (first : arraysEqual memory left middle = true)
    (second : arraysEqual memory middle right = true) :
    arraysEqual memory left right = true := by
  rw [arraysEqual_iff] at first second ⊢
  obtain ⟨firstNumber, firstSize, firstType, noReference, same⟩ := first
  obtain ⟨secondNumber, secondSize, secondType, -, same'⟩ := second
  have sizes : sizeOfElements memory middle = sizeOfElements memory left := by
    rw [sizeOfElements, sizeOfElements, firstNumber, firstSize]
  rw [sizes] at same'
  exact ⟨firstNumber.trans secondNumber, firstSize.trans secondSize,
    firstType.trans secondType, noReference, same.trans same'⟩

theorem objectsEqual_symm
    {fuel left right : Nat}
    {fSameReference : Bool}
    (leftBlock : heap.IsBlock left)
    (rightBlock : heap.IsBlock right)
    (found : ObjectsEqual heap.bytes fuel left right fSameReference =
      some true) :
    ObjectsEqual heap.bytes fuel right left fSameReference = some true := by
  induction fuel generalizing left right fSameReference with
  | zero => simp [ObjectsEqual] at found
  | succ fuel inductionHypothesis =>
      rw [objectsEqual_iff] at found ⊢
      cases found with
      | inl same => exact Or.inl same.symm
      | inr found =>
          obtain ⟨sameType, dataType, leftType, data⟩ := found
          have rightType := (dataTypeAt_congr sameType).symm.trans leftType
          refine Or.inr ⟨sameType.symm, dataType, rightType, ?_⟩
          cases dataType with
          | valueType =>
              have sizes := sameSize leftBlock rightBlock leftType rightType
                data.1
              refine ⟨data.1.symm, ?_⟩
              intro index below
              have inLeft := sizes ▸ below
              exact inductionHypothesis
                (fieldBlock leftBlock leftType inLeft)
                (fieldBlock rightBlock rightType below) (data.2 index inLeft)
          | object =>
              cases data with
              | inl same => exact Or.inl same.symm
              | inr found =>
                  obtain ⟨⟨leftObject, rightObject, compared⟩, equal⟩ := found
                  refine Or.inr ⟨⟨rightObject, leftObject, ?_⟩, ?_⟩
                  · have sameKind := sameType_of_objectsEqual equal
                    rw [← dataTypeAt_congr sameKind]
                    exact compared
                  · exact inductionHypothesis
                      (heap.referent leftBlock leftType leftObject).1
                      (heap.referent rightBlock rightType rightObject).1 equal
          | szArray =>
              exact ⟨data.1, arraysEqual_symm leftBlock rightBlock leftType
                rightType data.2⟩
          | reflection => exact SameBytes.symm data
          | _ => exact ⟨data.1, data.2.1, data.2.2.symm⟩

theorem equalData_trans
    {equal : Nat → Nat → Prop}
    {left middle right : Nat}
    {fSameReference : Bool}
    {dataType : DataType}
    (leftBlock : heap.IsBlock left)
    (middleBlock : heap.IsBlock middle)
    (rightBlock : heap.IsBlock right)
    (leftType : dataTypeAt heap.bytes left = some dataType)
    (middleType : dataTypeAt heap.bytes middle = some dataType)
    (rightType : dataTypeAt heap.bytes right = some dataType)
    (transitive : ∀ {first second third},
      heap.IsBlock first → heap.IsBlock second → heap.IsBlock third →
      equal first second → equal second third → equal first third)
    (first : EqualData heap.bytes equal fSameReference left middle dataType)
    (second : EqualData heap.bytes equal fSameReference middle right
      dataType) :
    EqualData heap.bytes equal fSameReference left right dataType := by
  cases dataType with
  | valueType =>
      have sizes := sameSize leftBlock middleBlock leftType middleType first.1
      have sizes' := sameSize middleBlock rightBlock middleType rightType
        second.1
      refine ⟨first.1.trans second.1, ?_⟩
      intro index inLeft
      have inMiddle := sizes ▸ inLeft
      have inRight := sizes' ▸ inMiddle
      exact transitive
        (fieldBlock leftBlock leftType inLeft)
        (fieldBlock middleBlock middleType inMiddle)
        (fieldBlock rightBlock rightType inRight)
        (first.2 index inLeft) (second.2 index inMiddle)
  | object =>
      cases first with
      | inl same =>
          unfold EqualData at second ⊢
          rw [same]
          exact second
      | inr found =>
          cases second with
          | inl same =>
              unfold EqualData
              rw [← same]
              exact Or.inr found
          | inr found' =>
              obtain ⟨⟨leftObject, middleObject, compared⟩, equal⟩ := found
              obtain ⟨⟨-, rightObject, -⟩, equal'⟩ := found'
              exact Or.inr ⟨⟨leftObject, rightObject, compared⟩, transitive
                (heap.referent leftBlock leftType leftObject).1
                (heap.referent middleBlock middleType middleObject).1
                (heap.referent rightBlock rightType rightObject).1
                equal equal'⟩
  | szArray => exact ⟨first.1, arraysEqual_trans first.2 second.2⟩
  | reflection => exact SameBytes.trans first second
  | _ => exact ⟨first.1, first.2.1, first.2.2.trans second.2.2⟩

theorem objectsEqual_trans
    {fuel left middle right : Nat}
    {fSameReference : Bool}
    (leftBlock : heap.IsBlock left)
    (middleBlock : heap.IsBlock middle)
    (rightBlock : heap.IsBlock right)
    (first : ObjectsEqual heap.bytes fuel left middle fSameReference =
      some true)
    (second : ObjectsEqual heap.bytes fuel middle right fSameReference =
      some true) :
    ObjectsEqual heap.bytes fuel left right fSameReference = some true := by
  induction fuel generalizing left middle right fSameReference with
  | zero => simp [ObjectsEqual] at first
  | succ fuel inductionHypothesis =>
      have firstStep := objectsEqual_iff.mp first
      have secondStep := objectsEqual_iff.mp second
      cases firstStep with
      | inl same => exact same ▸ second
      | inr firstFound =>
          cases secondStep with
          | inl same => exact same ▸ first
          | inr secondFound =>
              obtain ⟨firstSame, dataType, leftType, firstData⟩ := firstFound
              obtain ⟨secondSame, _, type, secondData⟩ := secondFound
              have middleType :=
                (dataTypeAt_congr firstSame).symm.trans leftType
              obtain rfl := Option.some.inj (type.symm.trans middleType)
              have rightType :=
                (dataTypeAt_congr secondSame).symm.trans middleType
              rw [objectsEqual_iff]
              refine Or.inr ⟨firstSame.trans secondSame, _, leftType, ?_⟩
              exact equalData_trans leftBlock middleBlock rightBlock leftType
                middleType rightType inductionHypothesis firstData secondData

/-- `ObjectsEqual` is an equivalence of the blocks. -/
theorem equal_equivalence (heap : BlockMemory) (fSameReference : Bool) :
    Equivalence (heap.Equal fSameReference) where
  refl ptr := ⟨1, by simp [ObjectsEqual]⟩
  symm := by
    rintro left right ⟨fuel, found⟩
    exact ⟨fuel, objectsEqual_symm left.property right.property found⟩
  trans := by
    rintro left middle right ⟨fuel, first⟩ ⟨fuel', second⟩
    refine ⟨max fuel fuel', objectsEqual_trans left.property middle.property
      right.property ?_ ?_⟩
    · exact objectsEqual_mono (Nat.le_max_left fuel fuel') first
    · exact objectsEqual_mono (Nat.le_max_right fuel fuel') second

end BlockMemory

end HeapBlocks

end NanoClr
