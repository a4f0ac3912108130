import NanoClr.Heap.HeapBlock
import NanoClr.TypeSystem.Metadata

/-!
# Creating arrays

`CLR_RT_HeapBlock_Array::CreateInstance` and the size that is computed for the
heap blocks of an array.
-/

namespace NanoClr

namespace Arrays

open HeapBlock TypeSystem

/-! ## Types of elements -/

/-- The results of the functions that fail. -/
inductive HResult where
  | CLR_E_OUT_OF_RANGE
  | CLR_E_WRONG_TYPE
  | CLR_E_OUT_OF_MEMORY
  | CLR_E_INVALID_PARAMETER
  | CLR_E_INVALID_OPERATION
  | CLR_E_INVALID_CAST
  | CLR_E_NULL_REFERENCE
  | CLR_E_TYPE_UNAVAILABLE
  | CLR_E_NOT_SUPPORTED
deriving DecidableEq

/-- The size of the types that are no elements. -/
def c_NA : UInt8 := 0x00

/-- The column `m_sizeInBytes` of `c_CLR_RT_DataTypeLookup`. -/
def m_sizeInBytes : DataType → UInt8
  | .boolean | .i1 | .u1 => 1
  | .char | .i2 | .u2 => 2
  | .i4 | .u4 | .r4 => 4
  | .i8 | .u8 | .r8 => 8
  | .dateTime | .timeSpan | .string | .object | .classType | .valueType
  | .szArray | .weakClass | .delegateHead => 12
  | _ => c_NA

/-- The flag `c_Numeric` of the same table. -/
def isNumeric : DataType → Bool
  | .boolean | .i1 | .u1 | .char | .i2 | .u2 | .i4 | .u4 | .r4 | .i8 | .u8
  | .r8 => true
  | _ => false

/-- The kind of the reflection data of a type. -/
def REFLECTION_TYPE : UInt16 := 0x02

/-- The reflection data: a type and how many times it is an array of it. -/
structure CLR_RT_ReflectionDef_Index where
  m_kind : UInt16
  m_levels : UInt16
  m_type : CLR_RT_TypeDef_Index
deriving DecidableEq

/-- The data types of the loaded types, and the type of arrays. -/
structure LoadedTypes where
  dataType : CLR_RT_TypeDef_Index → Option DataType
  m_Array : CLR_RT_TypeDef_Index

/-! ## Arrays -/

/-- An array: the heap blocks extracted for it, its header and its
elements. -/
structure CLR_RT_HeapBlock_Array (Element : Type) where
  extracted : UInt32
  reflectionData : CLR_RT_ReflectionDef_Index
  m_numOfElements : UInt32
  m_typeOfElement : DataType
  m_sizeOfElement : UInt8
  m_fReference : Bool
  elements : List Element

/-- The bytes of an array in front of its elements. -/
def sizeofArray : UInt32 := 20

/-- The heap as an array sees it: the lengths in heap blocks it has a free run
for, and what an element is cleared to, if there is memory for that. -/
structure ObjectHeap (Element : Type) where
  available : UInt32 → Bool
  cleared : DataType → Nat → Option Element

variable {Element : Type}

/-- The heap blocks of an array, as they are computed. -/
def arrayLengthHB (dt : DataType) (length : UInt32) : UInt32 :=
  CONVERTFROMSIZETOHEAPBLOCKS
    (sizeofArray + length * (m_sizeInBytes dt).toUInt32)

/-- The header of the array; its elements are not cleared yet. -/
def ExtractHeapBlocksForArray (heap : ObjectHeap Element) (dt : DataType)
    (length : UInt32) (reflex : CLR_RT_ReflectionDef_Index) :
    Option (CLR_RT_HeapBlock_Array Element) :=
  if (HB_MaxSize : Nat) < (arrayLengthHB dt length).toNat then
    none
  else if heap.available (arrayLengthHB dt length) then
    some
      { extracted := arrayLengthHB dt length
        reflectionData := reflex
        m_numOfElements := length
        m_typeOfElement := dt
        m_sizeOfElement := m_sizeInBytes dt
        m_fReference := !isNumeric dt
        elements := [] }
  else
    none

/-- `ClearElements` of all elements; elements that are values of their own
are allocated. -/
def clearElements (heap : ObjectHeap Element)
    (array : CLR_RT_HeapBlock_Array Element) :
    Except HResult (CLR_RT_HeapBlock_Array Element) :=
  match (List.range array.m_numOfElements.toNat).mapM
      (heap.cleared array.m_typeOfElement) with
  | none => .error .CLR_E_OUT_OF_MEMORY
  | some elements => .ok { array with elements := elements }

/-- `CreateInstance`: an array of a length whose elements have the type that the
reflection data name. -/
def CreateInstance (types : LoadedTypes) (heap : ObjectHeap Element)
    (length : UInt32) (reflex : CLR_RT_ReflectionDef_Index) :
    Except HResult (CLR_RT_HeapBlock_Array Element) :=
  if length.toInt32 < 0 then
    .error .CLR_E_OUT_OF_RANGE
  else if reflex.m_kind ≠ REFLECTION_TYPE then
    .error .CLR_E_WRONG_TYPE
  else
    let cls := if reflex.m_levels = 1 then reflex.m_type else types.m_Array
    match types.dataType cls with
    | none => .error .CLR_E_WRONG_TYPE
    | some dt =>
        if m_sizeInBytes dt = c_NA then
          .error .CLR_E_WRONG_TYPE
        else
          match ExtractHeapBlocksForArray heap dt length reflex with
          | none => .error .CLR_E_OUT_OF_MEMORY
          | some array => clearElements heap array

/-! ## What an array holds -/

/-- The bytes of the header and the elements. -/
def arrayBytes (length : UInt32) (size : UInt8) : Nat :=
  sizeofArray.toNat + length.toNat * size.toNat

/-- The heap blocks of an array hold its header and its elements. -/
structure CLR_RT_HeapBlock_Array.Holds
    (array : CLR_RT_HeapBlock_Array Element) : Prop where
  bytes : arrayBytes array.m_numOfElements array.m_sizeOfElement ≤
    sizeofHeapBlock.toNat * array.extracted.toNat
  inside : ∀ index < array.m_numOfElements.toNat,
    sizeofArray.toNat + index * array.m_sizeOfElement.toNat +
        array.m_sizeOfElement.toNat ≤
      sizeofHeapBlock.toNat * array.extracted.toNat

/-- The data type of the elements of a type whose elements have a size. -/
def elementType (types : LoadedTypes) (reflex : CLR_RT_ReflectionDef_Index) :
    Option DataType :=
  if reflex.m_kind = REFLECTION_TYPE then
    (types.dataType
      (if reflex.m_levels = 1 then reflex.m_type else types.m_Array)).filter
        fun dt => m_sizeInBytes dt != c_NA
  else
    none

/-- Nothing is created: the computed number of heap blocks is too large or not
available, or there is no memory for an element. -/
def Refuses (heap : ObjectHeap Element) (dt : DataType) (length : UInt32) :
    Prop :=
  (HB_MaxSize : Nat) < (arrayLengthHB dt length).toNat ∨
    heap.available (arrayLengthHB dt length) = false ∨
      ∃ index < length.toNat, heap.cleared dt index = none

/-! ## Which arrays are created -/

section Created

variable {types : LoadedTypes} {heap : ObjectHeap Element}
  {length : UInt32} {reflex : CLR_RT_ReflectionDef_Index}
  {array : CLR_RT_HeapBlock_Array Element} {dt : DataType}

theorem mapM_eq_none_iff
    {α β : Type}
    {f : α → Option β}
    {items : List α} :
    items.mapM f = none ↔ ∃ item ∈ items, f item = none := by
  induction items with
  | nil => simp
  | cons item rest inductionHypothesis =>
      rw [List.mapM_cons]
      simp only [List.mem_cons, exists_eq_or_imp]
      cases isResult : f item with
      | none => simp
      | some result =>
          rw [← inductionHypothesis]
          cases rest.mapM f with
          | none => simp
          | some results => simp

/-- A run of heap blocks is extracted unless it is too long or missing. -/
theorem extract_some
    (extracted : ExtractHeapBlocksForArray heap dt length reflex =
      some array) :
    (arrayLengthHB dt length).toNat ≤ HB_MaxSize ∧
      heap.available (arrayLengthHB dt length) = true ∧
      array.extracted = arrayLengthHB dt length ∧
      array.m_numOfElements = length ∧ array.m_typeOfElement = dt ∧
      array.m_sizeOfElement = m_sizeInBytes dt := by
  unfold ExtractHeapBlocksForArray at extracted
  split at extracted
  case isTrue => cases extracted
  case isFalse fits =>
    split at extracted
    case isTrue available =>
      cases extracted
      exact ⟨Nat.le_of_not_lt fits, available, rfl, rfl, rfl, rfl⟩
    case isFalse => cases extracted

/-- What is created is an array of the computed size. -/
theorem createInstance_ok
    (created : CreateInstance types heap length reflex = .ok array) :
    ∃ dt, elementType types reflex = some dt ∧ ¬ length.toInt32 < 0 ∧
      ¬ Refuses heap dt length ∧
      array.extracted = arrayLengthHB dt length ∧
      array.m_numOfElements = length ∧
      array.m_sizeOfElement = m_sizeInBytes dt := by
  unfold CreateInstance at created
  split at created
  case isTrue => cases created
  case isFalse nonnegative =>
    split at created
    case isTrue => cases created
    case isFalse isType =>
      dsimp only at created
      rw [ne_eq, not_not] at isType
      cases found : types.dataType
          (if reflex.m_levels = 1 then reflex.m_type else types.m_Array) with
      | none =>
          rw [found] at created
          cases created
      | some dt =>
          rw [found] at created
          dsimp only at created
          split at created
          case isTrue => cases created
          case isFalse hasSize =>
            cases extracted :
                ExtractHeapBlocksForArray heap dt length reflex with
            | none =>
                rw [extracted] at created
                cases created
            | some header =>
                rw [extracted] at created
                obtain ⟨fits, available, blocks, number, type, size⟩ :=
                  extract_some extracted
                dsimp only at created
                rw [clearElements, number, type] at created
                cases cleared : (List.range length.toNat).mapM
                    (heap.cleared dt) with
                | none =>
                    rw [cleared] at created
                    cases created
                | some elements =>
                    rw [cleared] at created
                    cases created
                    refine ⟨dt, ?_, nonnegative, ?_, blocks, rfl, size⟩
                    · rw [elementType, if_pos isType, found]
                      simp [Option.filter, hasSize]
                    · rintro (tooLong | missing | missing)
                      · omega
                      · rw [available] at missing
                        cases missing
                      · obtain ⟨index, inside, missing⟩ := missing
                        have isNone := mapM_eq_none_iff.mpr
                          ⟨index, List.mem_range.mpr inside, missing⟩
                        rw [isNone] at cleared
                        cases cleared

/-- Without a reason not to, an array is created. -/
theorem createInstance_created
    (isType : elementType types reflex = some dt)
    (nonnegative : ¬ length.toInt32 < 0)
    (notRefused : ¬ Refuses heap dt length) :
    ∃ array, CreateInstance types heap length reflex = .ok array := by
  rw [elementType] at isType
  split at isType
  case isFalse => cases isType
  case isTrue isReflection =>
    obtain ⟨found, hasSize⟩ := Option.filter_eq_some_iff.mp isType
    rw [bne_iff_ne] at hasSize
    rw [Refuses, not_or, not_or, Bool.not_eq_false] at notRefused
    obtain ⟨fits, available, elements⟩ := notRefused
    unfold CreateInstance ExtractHeapBlocksForArray
    rw [if_neg nonnegative, if_neg (not_not.mpr isReflection)]
    dsimp only
    rw [found]
    dsimp only
    rw [if_neg hasSize, if_neg fits, if_pos available]
    dsimp only
    rw [clearElements]
    dsimp only
    cases cleared : (List.range length.toNat).mapM (heap.cleared dt) with
    | none =>
        obtain ⟨index, member, missing⟩ := mapM_eq_none_iff.mp cleared
        exact absurd ⟨index, List.mem_range.mp member, missing⟩ elements
    | some results => exact ⟨_, rfl⟩

/-- The heap blocks that are computed hold the array exactly where no sum wraps
around. -/
theorem arrayLengthHB_holds_iff
    (fits : (arrayLengthHB dt length).toNat ≤ HB_MaxSize) :
    arrayBytes length (m_sizeInBytes dt) ≤
        sizeofHeapBlock.toNat * (arrayLengthHB dt length).toNat ↔
      arrayBytes length (m_sizeInBytes dt) + 11 < 2 ^ 32 := by
  have blocks : (arrayLengthHB dt length).toNat =
      (arrayBytes length (m_sizeInBytes dt) % 2 ^ 32 + 11) % 2 ^ 32 / 12 := by
    rw [arrayLengthHB, CONVERTFROMSIZETOHEAPBLOCKS, UInt32.toNat_div,
      UInt32.toNat_add, UInt32.toNat_add, UInt32.toNat_mul, arrayBytes,
      UInt8.toNat_toUInt32]
    simp only [sizeofArray, sizeofHeapBlock, UInt32.reduceSub,
      UInt32.reduceToNat]
    omega
  have few : (arrayLengthHB dt length).toNat ≤ 0xFFFF := fits
  have twelve : sizeofHeapBlock.toNat = 12 := rfl
  rw [twelve]
  omega

/-- Arrays are created with enough heap blocks exactly where the computed
length does not wrap around, or where nothing is created. -/
theorem createInstance_holds_iff :
    (∀ array, CreateInstance types heap length reflex = .ok array →
      array.Holds) ↔
      ∀ dt, elementType types reflex = some dt → ¬ length.toInt32 < 0 →
        arrayBytes length (m_sizeInBytes dt) + 11 < 2 ^ 32 ∨
          Refuses heap dt length := by
  constructor
  · intro holds dt isType nonnegative
    by_contra undersized
    rw [not_or] at undersized
    obtain ⟨wraps, notRefused⟩ := undersized
    obtain ⟨array, created⟩ :=
      createInstance_created isType nonnegative notRefused
    obtain ⟨other, isOther, _, _, blocks, number, size⟩ :=
      createInstance_ok created
    rw [isType] at isOther
    cases isOther
    have bytes := (holds array created).bytes
    rw [blocks, number, size] at bytes
    rw [Refuses, not_or] at notRefused
    exact wraps
      ((arrayLengthHB_holds_iff (Nat.le_of_not_lt notRefused.1)).mp bytes)
  · intro fits array created
    obtain ⟨dt, isType, nonnegative, notRefused, blocks, number, size⟩ :=
      createInstance_ok created
    have noWrap := (fits dt isType nonnegative).resolve_right notRefused
    rw [Refuses, not_or] at notRefused
    have bytes := (arrayLengthHB_holds_iff
      (Nat.le_of_not_lt notRefused.1)).mpr noWrap
    constructor
    · rw [blocks, number, size]
      exact bytes
    · intro index inside
      rw [number] at inside
      rw [blocks, size]
      have below : index * (m_sizeInBytes dt).toNat + (m_sizeInBytes dt).toNat ≤
          length.toNat * (m_sizeInBytes dt).toNat := by
        rw [← Nat.succ_mul]
        exact Nat.mul_le_mul_right _ inside
      rw [arrayBytes] at bytes
      omega

end Created

/-! ## An array of objects -/

/-- A heap with a free run of any length, where objects are cleared. -/
def plentyOfMemory : ObjectHeap Unit where
  available _ := true
  cleared _ _ := some ()

/-- All types are of objects. -/
def onlyObjects : LoadedTypes where
  dataType _ := some .object
  m_Array := ⟨0⟩

/-- The reflection data of an array of objects. -/
def arrayOfObjects : CLR_RT_ReflectionDef_Index where
  m_kind := REFLECTION_TYPE
  m_levels := 1
  m_type := ⟨1⟩

/-- An array of 357913940 objects is created in a single heap block, which is
smaller than its header. -/
theorem createInstance_undersized :
    ∃ array : CLR_RT_HeapBlock_Array Unit,
      CreateInstance onlyObjects plentyOfMemory 357913940 arrayOfObjects =
          .ok array ∧
        array.extracted = 1 ∧ array.m_numOfElements = 357913940 ∧
          ¬ array.Holds := by
  have isType : elementType onlyObjects arrayOfObjects = some .object := rfl
  obtain ⟨array, created⟩ :=
    @createInstance_created Unit onlyObjects plentyOfMemory 357913940
      arrayOfObjects .object isType (by decide) (by
        rw [Refuses, not_or, not_or]
        refine ⟨by decide, by decide, ?_⟩
        rintro ⟨index, _, missing⟩
        cases missing)
  obtain ⟨dt, isOther, _, _, blocks, number, size⟩ := createInstance_ok created
  rw [isType] at isOther
  cases isOther
  refine ⟨array, created, blocks, number, fun holds => ?_⟩
  have bytes := holds.bytes
  rw [blocks, number, size] at bytes
  exact absurd bytes (by decide)

end Arrays

end NanoClr
