import NanoClr.Arrays.Elements

/-!
# Arrays of objects

The backing arrays of the collections: how one is created, and how its
elements are read and written.
-/

namespace NanoClr

namespace Collections

open Arrays HeapBlock TypeSystem

/-! ## Creating -/

/-- Elements that may be NULL. -/
class HasNull (Element : Type) where
  null : Element

instance {α : Type} : HasNull (Option α) where
  null := none

@[simp] theorem null_option {α : Type} :
    (HasNull.null : Option α) = none := rfl

instance : HasNull Arrays.Element where
  null := .null

/-- An array of references; NULL is `none`. -/
abbrev ObjectArray (α : Type) :=
  CLR_RT_HeapBlock_Array (Option α)

/-- `CLR_RT_WellKnownTypes::m_Object`, alone among the loaded types. -/
def wellKnownObject : LoadedTypes where
  dataType _ := some .object
  m_Array := ⟨0⟩

/-- The type of arrays of `m_Object`. -/
def m_Object : CLR_RT_ReflectionDef_Index where
  m_kind := REFLECTION_TYPE
  m_levels := 1
  m_type := ⟨1⟩

/-- References are cleared to NULL, which takes no memory. -/
def referencesHeap (Element : Type) [HasNull Element]
    (available : UInt32 → Bool) : ObjectHeap Element where
  available := available
  cleared _ _ := some HasNull.null

variable {Element : Type}

/-- The heap blocks of an array hold its header and its elements. -/
def storageHolds (array : CLR_RT_HeapBlock_Array Element) : Bool :=
  arrayBytes array.m_numOfElements array.m_sizeOfElement ≤
    sizeofHeapBlock.toNat * array.extracted.toNat

/-- Creates an array of objects on a heap with free runs of the given lengths.
An array that is too small for its elements is cleared beyond its end. -/
def newObjectArray [HasNull Element] (available : UInt32 → Bool)
    (capacity : UInt32) : CallResult (CLR_RT_HeapBlock_Array Element) :=
  match CreateInstance wellKnownObject (referencesHeap Element available)
      capacity m_Object with
  | .error hr => .failed hr
  | .ok array => if storageHolds array then .S_OK array else .outside

/-- `memcpy` of elements of one array to another one. -/
def copyElements
    (target : CLR_RT_HeapBlock_Array Element)
    (targetIndex : UInt32)
    (source : CLR_RT_HeapBlock_Array Element)
    (sourceIndex length : UInt32) :
    Option (CLR_RT_HeapBlock_Array Element) :=
  (readElements source sourceIndex length.toNat).bind
    (writeElements target targetIndex)

/-- Fills elements with NULL. -/
def ClearElements
    [HasNull Element]
    (array : CLR_RT_HeapBlock_Array Element)
    (index length : UInt32) : Option (CLR_RT_HeapBlock_Array Element) :=
  writeElements array index (List.replicate length.toNat HasNull.null)

/-! ## Well formed arrays -/

/-- An array of objects as it lies in the heap. -/
structure Allocated (array : CLR_RT_HeapBlock_Array Element) : Prop where
  length : array.elements.length = array.m_numOfElements.toNat
  object : array.m_typeOfElement = .object
  size : array.m_sizeOfElement = 12
  bytes : arrayBytes array.m_numOfElements array.m_sizeOfElement ≤
    sizeofHeapBlock.toNat * HB_MaxSize

/-- An array of NULLs, as it is created. -/
def clearedArray (Element : Type) [HasNull Element] (capacity : UInt32) :
    CLR_RT_HeapBlock_Array Element where
  extracted := arrayLengthHB .object capacity
  reflectionData := m_Object
  m_numOfElements := capacity
  m_typeOfElement := .object
  m_sizeOfElement := 12
  m_fReference := true
  elements := List.replicate capacity.toNat HasNull.null

/-- A length that is refused, or a heap without enough memory for it. -/
def RefusesObjects (available : UInt32 → Bool) (capacity : UInt32) : Prop :=
  capacity.toInt32 < 0 ∨
    (HB_MaxSize : Nat) < (arrayLengthHB .object capacity).toNat ∨
      available (arrayLengthHB .object capacity) = false

/-- The computed size of an array of so many objects does not wrap around. -/
def SizeFits (capacity : UInt32) : Prop :=
  arrayBytes capacity 12 + 11 < 2 ^ 32

theorem sizeFits_of_le
    {capacity : UInt32}
    (few : capacity.toNat ≤ 2 ^ 20) : SizeFits capacity := by
  have header : sizeofArray.toNat = 20 := rfl
  have element : UInt8.toNat 12 = 12 := rfl
  rw [SizeFits, arrayBytes, header, element]
  omega

theorem Allocated.small
    {array : CLR_RT_HeapBlock_Array Element}
    (allocated : Allocated array) :
    array.elements.length < HB_MaxSize := by
  have bytes := allocated.bytes
  rw [allocated.size] at bytes
  have size : UInt8.toNat 12 = 12 := rfl
  have header : sizeofArray.toNat = 20 := rfl
  have blocks : sizeofHeapBlock.toNat * HB_MaxSize = 12 * 0xFFFF := rfl
  have largest : HB_MaxSize = 0xFFFF := rfl
  rw [arrayBytes, size, header, blocks] at bytes
  rw [allocated.length, largest]
  omega

theorem Allocated.addressed
    {array : CLR_RT_HeapBlock_Array Element}
    (allocated : Allocated array) : array.Addressed := by
  have small : array.elements.length < 0xFFFF := allocated.small
  have size : array.m_sizeOfElement.toNat = 12 := by
    rw [allocated.size]
    rfl
  constructor <;> rw [size] <;> omega

/-- The number of elements as an index. -/
theorem Allocated.numOfElements
    {array : CLR_RT_HeapBlock_Array Element}
    (allocated : Allocated array) :
    array.m_numOfElements = UInt32.ofNat array.elements.length := by
  rw [allocated.length, UInt32.ofNat_toNat]

theorem Allocated.signed
    {array : CLR_RT_HeapBlock_Array Element}
    (allocated : Allocated array) :
    array.m_numOfElements.toInt32 = Int32.ofNat array.elements.length := by
  rw [allocated.numOfElements, UInt32.toInt32_ofNat']

/-- Writing elements leaves an array well formed. -/
theorem Allocated.withElements
    {array : CLR_RT_HeapBlock_Array Element}
    {elements : List Element}
    (allocated : Allocated array)
    (sameLength : elements.length = array.elements.length) :
    Allocated { array with elements := elements } where
  length := sameLength.trans allocated.length
  object := allocated.object
  size := allocated.size
  bytes := allocated.bytes

/-! ## What is created -/

section Created

variable [HasNull Element] {available : UInt32 → Bool} {capacity : UInt32}

theorem mapM_some {β : Type} (value : β) (items : List Nat) :
    items.mapM (fun _ => some value) =
      some (List.replicate items.length value) := by
  induction items with
  | nil => rfl
  | cons item rest inductionHypothesis =>
      rw [List.mapM_cons, inductionHypothesis]
      rfl

theorem createInstance_objects :
    CreateInstance wellKnownObject (referencesHeap Element available) capacity
        m_Object =
      if capacity.toInt32 < 0 then
        .error .CLR_E_OUT_OF_RANGE
      else if (HB_MaxSize : Nat) < (arrayLengthHB .object capacity).toNat then
        .error .CLR_E_OUT_OF_MEMORY
      else if available (arrayLengthHB .object capacity) then
        .ok (clearedArray Element capacity)
      else
        .error .CLR_E_OUT_OF_MEMORY := by
  unfold CreateInstance ExtractHeapBlocksForArray
  split
  case isTrue => rfl
  case isFalse =>
    have isType : m_Object.m_kind = REFLECTION_TYPE := rfl
    rw [if_neg (not_not.mpr isType)]
    dsimp only [wellKnownObject]
    rw [if_neg (by decide)]
    change _ = if _ then _ else if (referencesHeap Element available).available
      (arrayLengthHB .object capacity) then _ else _
    by_cases tooLong :
        (HB_MaxSize : Nat) < (arrayLengthHB .object capacity).toNat
    · rw [if_pos tooLong, if_pos tooLong]
    · rw [if_neg tooLong, if_neg tooLong]
      by_cases isAvailable : (referencesHeap Element available).available
          (arrayLengthHB .object capacity) = true
      · rw [if_pos isAvailable, if_pos isAvailable]
        dsimp only [clearElements, referencesHeap]
        rw [mapM_some, List.length_range]
        rfl
      · rw [if_neg isAvailable, if_neg isAvailable]

theorem storageHolds_cleared
    (few : (arrayLengthHB .object capacity).toNat ≤ HB_MaxSize) :
    storageHolds (clearedArray Element capacity) = true ↔ SizeFits capacity := by
  have holds := arrayLengthHB_holds_iff few
  have elementSize : m_sizeInBytes .object = 12 := rfl
  rw [elementSize] at holds
  rw [storageHolds, decide_eq_true_iff]
  exact holds

theorem createInstance_refused
    (refuses : RefusesObjects available capacity) :
    ∃ hr, CreateInstance wellKnownObject (referencesHeap Element available) capacity
      m_Object = .error hr := by
  rw [createInstance_objects]
  split
  case isTrue => exact ⟨_, rfl⟩
  case isFalse nonnegative =>
    split
    case isTrue => exact ⟨_, rfl⟩
    case isFalse few =>
      have missing := (refuses.resolve_left nonnegative).resolve_left few
      rw [missing]
      exact ⟨_, rfl⟩

theorem newObjectArray_refused
    (refuses : RefusesObjects available capacity) :
    ∃ hr, (newObjectArray available capacity :
      CallResult (CLR_RT_HeapBlock_Array Element)) = .failed hr := by
  obtain ⟨hr, refused⟩ := @createInstance_refused Element _ _ _ refuses
  rw [newObjectArray, refused]
  exact ⟨hr, rfl⟩

theorem newObjectArray_notRefused
    (notRefused : ¬ RefusesObjects available capacity) :
    newObjectArray available capacity =
      if storageHolds (clearedArray Element capacity) then
        .S_OK (clearedArray Element capacity)
      else
        .outside := by
  rw [RefusesObjects, not_or, not_or, Bool.not_eq_false] at notRefused
  obtain ⟨nonnegative, few, isAvailable⟩ := notRefused
  rw [newObjectArray, createInstance_objects, if_neg nonnegative, if_neg few,
    if_pos isAvailable]

/-- An array is created if its size fits. -/
theorem newObjectArray_created
    (notRefused : ¬ RefusesObjects available capacity)
    (fits : SizeFits capacity) :
    newObjectArray available capacity = .S_OK (clearedArray Element capacity) := by
  have few := Nat.le_of_not_lt (not_or.mp (not_or.mp notRefused).2).1
  rw [newObjectArray_notRefused notRefused,
    if_pos ((storageHolds_cleared few).mpr fits)]

theorem newObjectArray_outside
    (notRefused : ¬ RefusesObjects available capacity)
    (wraps : ¬ SizeFits capacity) :
    (newObjectArray available capacity : CallResult (CLR_RT_HeapBlock_Array Element)) =
      .outside := by
  have few := Nat.le_of_not_lt (not_or.mp (not_or.mp notRefused).2).1
  rw [newObjectArray_notRefused notRefused,
    if_neg fun holds => wraps ((storageHolds_cleared few).mp holds)]

/-- An array that is created is well formed. -/
theorem clearedArray_allocated
    (notRefused : ¬ RefusesObjects available capacity)
    (fits : SizeFits capacity) :
    Allocated (clearedArray Element capacity) := by
  have few := Nat.le_of_not_lt (not_or.mp (not_or.mp notRefused).2).1
  have held := (@storageHolds_cleared Element _ _ few).mpr fits
  rw [storageHolds, decide_eq_true_iff] at held
  have bound := Nat.mul_le_mul_left sizeofHeapBlock.toNat few
  exact ⟨List.length_replicate, rfl, rfl, Nat.le_trans held bound⟩

end Created

end Collections

end NanoClr
