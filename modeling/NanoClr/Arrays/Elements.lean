import Mathlib.Data.UInt
import NanoClr.Arrays.ArrayElements

/-!
# Copying single elements

`Reassign`, `LoadFromReference` and `StoreToReference` as they are used on the
elements of arrays.
-/

namespace NanoClr

namespace Arrays

open HeapBlock TypeSystem

/-- An element, by its value.  An object of a value type that is not boxed
belongs to the element that refers to it; other objects are known by their
addresses. -/
inductive Element where
  | direct (dt : DataType) (numeric : UInt64)
  | null
  | object (ptr : UInt32)
  | valueType (boxed : Bool) (cls : CLR_RT_TypeDef_Index)
      (fields : List Element)

namespace Element

/-- The tag of an element. -/
def DataType : Element → NanoClr.DataType
  | direct dt _ => dt
  | _ => .object

/-- The number that an element holds, as far as it holds one. -/
def NumericByRef : Element → UInt64
  | direct _ numeric => numeric
  | _ => 0

/-- The element is a structure that is not boxed. -/
def IsAValueType : Element → Bool
  | valueType boxed _ _ => !boxed
  | _ => false

/-- `IsAReferenceOfThisType(DATATYPE_VALUETYPE)` -/
def IsAReferenceOfValueType : Element → Bool
  | valueType _ _ _ => true
  | _ => false

end Element

/-! ## Assigning -/

mutual

/-- Assigns a value to an element.  A value type is copied into the object of
the element, which becomes boxed if the value is. -/
def Reassign (slot value : Element) : Element × CallResult Unit :=
  let fDestination := slot.IsAValueType
  let fSource := value.IsAValueType
  if fSource ≠ fDestination ∧
      fDestination ≠ value.IsAReferenceOfValueType then
    (slot, .failed .CLR_E_WRONG_TYPE)
  else if fDestination then
    match value, slot with
    | .valueType boxed cls fields, .valueType slotBoxed slotCls slotFields =>
        if cls = slotCls then
          let copied := ReassignFields slotFields fields
          (.valueType (slotBoxed || boxed) slotCls copied.1, copied.2)
        else
          (slot, .failed .CLR_E_WRONG_TYPE)
    | _, _ => (slot, .failed .CLR_E_WRONG_TYPE)
  else
    (value, .S_OK ())

/-- Assigns the fields of an object of a value type in turn; two objects of one
class have as many. -/
def ReassignFields : List Element → List Element →
    List Element × CallResult Unit
  | [], [] => ([], .S_OK ())
  | slot :: slots, value :: values =>
      match Reassign slot value with
      | (slot, .S_OK _) =>
          let copied := ReassignFields slots values
          (slot :: copied.1, copied.2)
      | (slot, failure) => (slot :: slots, failure)
  | slots, _ => (slots, .outside)

end

mutual

/-- Whether a value can be assigned to an element.  A value type that is not
boxed takes objects of its class whose fields can be assigned to its own; other
elements take everything else. -/
def CanAssign : Element → Element → Bool
  | .valueType false cls slots, .valueType _ valueCls values =>
      valueCls = cls && CanAssignFields slots values
  | .valueType false _ _, _ => false
  | _, .valueType false _ _ => false
  | _, _ => true

/-- Fields are assigned in turn, to as many. -/
def CanAssignFields : List Element → List Element → Bool
  | [], [] => true
  | slot :: slots, value :: values =>
      CanAssign slot value && CanAssignFields slots values
  | _, _ => false

end

mutual

theorem reassign_ok_iff
    (slot value : Element) :
    (Reassign slot value).2 = .S_OK () ↔ CanAssign slot value = true := by
  cases slot with
  | valueType slotBoxed slotCls slotFields =>
      cases value with
      | valueType boxed cls fields =>
          cases slotBoxed with
          | false =>
              have copied := reassignFields_ok_iff slotFields fields
              rw [Reassign, CanAssign]
              by_cases sameClass : cls = slotCls
              · simpa [Element.IsAValueType, Element.IsAReferenceOfValueType,
                  sameClass] using copied
              · simp [Element.IsAValueType, Element.IsAReferenceOfValueType,
                  sameClass]
          | true =>
              cases boxed <;>
                simp [Reassign, CanAssign, Element.IsAValueType,
                  Element.IsAReferenceOfValueType]
      | _ =>
          cases slotBoxed <;>
            simp [Reassign, CanAssign, Element.IsAValueType,
              Element.IsAReferenceOfValueType]
  | _ =>
      cases value with
      | valueType boxed cls fields =>
          cases boxed <;>
            simp [Reassign, CanAssign, Element.IsAValueType,
              Element.IsAReferenceOfValueType]
      | _ =>
          simp [Reassign, CanAssign, Element.IsAValueType]
termination_by sizeOf value

theorem reassignFields_ok_iff
    (slots values : List Element) :
    (ReassignFields slots values).2 = .S_OK () ↔
      CanAssignFields slots values = true := by
  cases slots with
  | nil => cases values <;> simp [ReassignFields, CanAssignFields]
  | cons slot slots =>
      cases values with
      | nil => simp [ReassignFields, CanAssignFields]
      | cons value values =>
          have first := reassign_ok_iff slot value
          have rest := reassignFields_ok_iff slots values
          rw [ReassignFields, CanAssignFields, Bool.and_eq_true, ← first,
            ← rest]
          rcases Reassign slot value with ⟨assigned, _ | _ | _⟩
          · simp
          · simp
          · simp
termination_by sizeOf values

end

mutual

/-- What is assigned is the value. -/
theorem reassign_value
    (slot value : Element)
    (succeeds : (Reassign slot value).2 = .S_OK ()) :
    (Reassign slot value).1 = value := by
  unfold Reassign at succeeds ⊢
  dsimp only at succeeds ⊢
  split at succeeds
  case isTrue => cases succeeds
  case isFalse compatible =>
    rw [if_neg compatible]
    split at succeeds
    case isFalse notValueType => rw [if_neg notValueType]
    case isTrue isValueType =>
      rw [if_pos isValueType]
      cases value with
      | valueType boxed cls fields =>
          cases slot with
          | valueType slotBoxed slotCls slotFields =>
              have unboxed : slotBoxed = false := by
                simpa [Element.IsAValueType] using isValueType
              dsimp only at succeeds ⊢
              split at succeeds
              case isFalse => cases succeeds
              case isTrue sameClass =>
                have copied := reassignFields_values slotFields fields succeeds
                rw [if_pos sameClass, copied, unboxed, sameClass,
                  Bool.false_or]
          | _ => cases succeeds
      | _ => cases succeeds
termination_by sizeOf value

theorem reassignFields_values
    (slots values : List Element)
    (succeeds : (ReassignFields slots values).2 = .S_OK ()) :
    (ReassignFields slots values).1 = values := by
  cases slots with
  | nil =>
      cases values with
      | nil => rfl
      | cons value values => cases succeeds
  | cons slot slots =>
      cases values with
      | nil => cases succeeds
      | cons value values =>
          rw [ReassignFields] at succeeds ⊢
          have first := reassign_value slot value
          have rest := reassignFields_values slots values
          revert succeeds first
          rcases Reassign slot value with ⟨assigned, _ | _ | _⟩
          · intro succeeds first
            dsimp only at succeeds first ⊢
            rw [first rfl, rest succeeds]
          · intro succeeds
            cases succeeds
          · intro succeeds
            cases succeeds
termination_by sizeOf values

end

mutual

theorem reassign_inRange
    (slot value : Element) :
    (Reassign slot value).2 ≠ .failed .CLR_E_OUT_OF_RANGE := by
  unfold Reassign
  dsimp only
  split
  case isTrue => simp
  case isFalse =>
    split
    case isFalse => simp
    case isTrue =>
      cases value with
      | valueType boxed cls fields =>
          cases slot with
          | valueType slotBoxed slotCls slotFields =>
              dsimp only
              split
              case isTrue => exact reassignFields_inRange slotFields fields
              case isFalse => simp
          | _ => simp
      | _ => simp
termination_by sizeOf value

theorem reassignFields_inRange
    (slots values : List Element) :
    (ReassignFields slots values).2 ≠ .failed .CLR_E_OUT_OF_RANGE := by
  cases slots with
  | nil =>
      cases values with
      | nil => simp [ReassignFields]
      | cons value values => simp [ReassignFields]
  | cons slot slots =>
      cases values with
      | nil => simp [ReassignFields]
      | cons value values =>
          rw [ReassignFields]
          have first := reassign_inRange slot value
          have rest := reassignFields_inRange slots values
          revert first
          rcases Reassign slot value with ⟨assigned, _ | _ | _⟩
          · intro _
            exact rest
          · intro first
            exact first
          · intro first
            exact first
termination_by sizeOf values

end

/-! ## Types and memory -/

/-- The failures of `CLR_RT_TypeDescriptor::InitializeFromObject`. -/
inductive DescriptorFailure where
  | CLR_E_NULL_REFERENCE
  | CLR_E_WRONG_TYPE
  | CLR_E_TYPE_UNAVAILABLE

/-- The result with which a search for a type fails. -/
def DescriptorFailure.toHResult : DescriptorFailure → HResult
  | CLR_E_NULL_REFERENCE => .CLR_E_NULL_REFERENCE
  | CLR_E_WRONG_TYPE => .CLR_E_WRONG_TYPE
  | CLR_E_TYPE_UNAVAILABLE => .CLR_E_TYPE_UNAVAILABLE

/-- The type system as the copying of elements sees it: the descriptor of the
elements of an array, whether an element is an instance of what a descriptor
describes, and new objects of value types. -/
structure ElementTypes (Descriptor : Type) where
  types : LoadedTypes
  describeElements : CLR_RT_ReflectionDef_Index →
    Except DescriptorFailure Descriptor
  -- `IsInstanceOf` changes the descriptors that it is given
  isInstanceOf : Element → Descriptor →
    Except DescriptorFailure (Bool × Descriptor)
  -- the memory differs from one element to the next
  newObject : Nat → CLR_RT_TypeDef_Index → Option Element
  newObject_unboxed : ∀ turn cls object,
    newObject turn cls = some object → object.IsAValueType = true

variable {Descriptor : Type} (system : ElementTypes Descriptor)

/-! ## Loading and storing -/

/-- `CopyValueType`: the fields of a structure are assigned to those of another
one of the same class. -/
def CopyValueType (destination source : Element) :
    Element × CallResult Unit :=
  match source, destination with
  | .valueType boxed cls fields, .valueType destBoxed destCls destFields =>
      if cls = destCls then
        let copied := ReassignFields destFields fields
        (.valueType (destBoxed || boxed) destCls copied.1, copied.2)
      else
        (destination, .failed .CLR_E_WRONG_TYPE)
  | _, _ => (destination, .failed .CLR_E_WRONG_TYPE)

/-- The element whose turn it is decides on the memory for a new object. -/
def CloneObject (turn : Nat) (source : Element) : CallResult Element :=
  match source with
  | .valueType _ cls _ =>
      match system.newObject turn cls with
      | none => .failed .CLR_E_OUT_OF_MEMORY
      | some object =>
          match CopyValueType object source with
          | (copy, .S_OK _) => .S_OK copy
          | (_, .failed hr) => .failed hr
          | (_, .outside) => .outside
  | _ => .failed .CLR_E_NOT_SUPPORTED

/-- The bytes of a number that fit in an element. -/
def truncated (size : UInt8) (numeric : UInt64) : UInt64 :=
  if size = 4 then
    numeric % 2 ^ 32
  else if size = 8 then
    numeric
  else if size = 1 then
    numeric % 2 ^ 8
  else
    numeric % 2 ^ 16

/-- `LoadFromReference`, of a reference to an element of an array. -/
def LoadFromReference (array : CLR_RT_HeapBlock_Array Element) (turn : Nat)
    (element : Element) : CallResult Element :=
  if !array.m_fReference then
    .S_OK (.direct array.m_typeOfElement
      (truncated array.m_sizeOfElement element.NumericByRef))
  else if element.IsAValueType then
    CloneObject system turn element
  else
    .S_OK element

/-- The number in a boxed one; there is none in NULL. -/
def FixBoxingReference (element : Element) : Option Element :=
  match element with
  | .null => none
  | .valueType true cls fields =>
      match system.types.dataType cls with
      | none => none
      | some .valueType => some element
      | some _ => fields.head?
  | _ => some element

/-- An object has to be an instance of the type of the elements. -/
def checkStored (array : CLR_RT_HeapBlock_Array Element) (value : Element) :
    CallResult Unit :=
  if value.DataType = .object then
    match value with
    | .null => .S_OK ()
    | _ =>
        match system.describeElements array.reflectionData with
        | .error failure => .failed failure.toHResult
        | .ok descriptor =>
            match system.isInstanceOf value descriptor with
            | .error failure => .failed failure.toHResult
            | .ok (false, _) => .failed .CLR_E_WRONG_TYPE
            | .ok (true, _) => .S_OK ()
  else
    .S_OK ()

/-- `StoreToReference` with a size of 0, to an element of an array. -/
def StoreToReference (array : CLR_RT_HeapBlock_Array Element)
    (slot value : Element) : Element × CallResult Unit :=
  if !array.m_fReference then
    match FixBoxingReference system value with
    | none => (slot, .failed .CLR_E_NULL_REFERENCE)
    | some object =>
        if object.DataType ≠ array.m_typeOfElement then
          (slot, .failed .CLR_E_WRONG_TYPE)
        else
          (.direct array.m_typeOfElement
            (truncated array.m_sizeOfElement object.NumericByRef), .S_OK ())
  else
    match checkStored system array value with
    | .S_OK _ => Reassign slot value
    | failure => (slot, failure)

/-- The check of `Copy`: NULL is an instance of every type. -/
def checkInstance (element : Element) (descriptor : Descriptor) :
    CallResult Descriptor :=
  match element with
  | .null => .S_OK descriptor
  | _ =>
      match system.isInstanceOf element descriptor with
      | .error failure => .failed failure.toHResult
      | .ok (false, _) => .failed .CLR_E_INVALID_CAST
      | .ok (true, descriptor) => .S_OK descriptor

/-! ## What is loaded and stored -/

section Values

/-- An element of an array as it is held there: of a number only the bytes of
its type. -/
def held (array : CLR_RT_HeapBlock_Array Element) (element : Element) :
    Element :=
  if !array.m_fReference then
    .direct array.m_typeOfElement
      (truncated array.m_sizeOfElement element.NumericByRef)
  else
    element

/-- A value as it is stored: a number is taken out of its box. -/
def storedValue (array : CLR_RT_HeapBlock_Array Element) (value : Element) :
    Element :=
  if !array.m_fReference then
    .direct array.m_typeOfElement (truncated array.m_sizeOfElement
      (((FixBoxingReference system value).map
        Element.NumericByRef).getD 0))
  else
    value

variable {system} {array : CLR_RT_HeapBlock_Array Element}
  {slot value element : Element}

theorem copyValueType_eq_reassign
    (unboxed : slot.IsAValueType = true)
    (isValueType : value.IsAReferenceOfValueType = true) :
    CopyValueType slot value = Reassign slot value := by
  cases value with
  | valueType boxed cls fields =>
      cases slot with
      | valueType slotBoxed slotCls slotFields =>
          rw [Reassign]
          dsimp only
          rw [if_neg, if_pos unboxed]
          · rfl
          · rw [unboxed, isValueType]
            simp
      | _ => cases unboxed
  | _ => cases isValueType

theorem cloneObject_value
    {turn : Nat}
    (unboxed : element.IsAValueType = true)
    (cloned : CloneObject system turn element = .S_OK value) :
    value = element := by
  cases element with
  | valueType boxed cls fields =>
      rw [CloneObject] at cloned
      cases created : system.newObject turn cls with
      | none =>
          rw [created] at cloned
          cases cloned
      | some object =>
          rw [created] at cloned
          dsimp only at cloned
          rw [copyValueType_eq_reassign
            (system.newObject_unboxed turn cls object created) rfl] at cloned
          have assigned := reassign_value object (.valueType boxed cls fields)
          revert cloned assigned
          rcases Reassign object (.valueType boxed cls fields) with
            ⟨copy, _ | _ | _⟩
          · intro cloned assigned
            cases cloned
            exact assigned rfl
          · intro cloned
            cases cloned
          · intro cloned
            cases cloned
  | _ => cases unboxed

theorem loadFromReference_value
    {turn : Nat}
    (loads : LoadFromReference system array turn element = .S_OK value) :
    value = held array element := by
  unfold LoadFromReference at loads
  unfold held
  split at loads
  case isTrue isNumber =>
    cases loads
    rw [if_pos isNumber]
  case isFalse isReference =>
    rw [if_neg isReference]
    split at loads
    case isTrue unboxed => exact cloneObject_value unboxed loads
    case isFalse =>
      cases loads
      rfl

theorem storeToReference_value
    (stores : (StoreToReference system array slot value).2 = .S_OK ()) :
    (StoreToReference system array slot value).1 =
      storedValue system array value := by
  unfold StoreToReference at stores ⊢
  unfold storedValue
  split at stores
  case isTrue isNumber =>
    rw [if_pos isNumber, if_pos isNumber]
    cases fixed : FixBoxingReference system value with
    | none =>
        rw [fixed] at stores
        cases stores
    | some object =>
        rw [fixed] at stores
        dsimp only at stores ⊢
        split at stores
        case isTrue => cases stores
        case isFalse sameType =>
          rw [if_neg sameType]
          rfl
  case isFalse isReference =>
    rw [if_neg isReference, if_neg isReference]
    cases checked : checkStored system array value with
    | S_OK done =>
        rw [checked] at stores
        exact reassign_value slot value stores
    | failed hr =>
        rw [checked] at stores
        cases stores
    | outside =>
        rw [checked] at stores
        cases stores

/-! ## No element is out of range -/

theorem toHResult_inRange (failure : DescriptorFailure) :
    failure.toHResult ≠ .CLR_E_OUT_OF_RANGE := by
  cases failure <;> simp [DescriptorFailure.toHResult]

theorem checkInstance_inRange {descriptor : Descriptor} :
    checkInstance system element descriptor ≠
      .failed .CLR_E_OUT_OF_RANGE := by
  unfold checkInstance
  split
  case h_1 => simp
  case h_2 =>
    split
    case h_1 failure _ => simpa using toHResult_inRange failure
    case h_2 => simp
    case h_3 => simp

theorem copyValueType_inRange :
    (CopyValueType slot value).2 ≠ .failed .CLR_E_OUT_OF_RANGE := by
  unfold CopyValueType
  split
  case h_1 =>
    split
    case isTrue => exact reassignFields_inRange _ _
    case isFalse => simp
  case h_2 => simp

theorem loadFromReference_inRange {turn : Nat} :
    LoadFromReference system array turn element ≠
      .failed .CLR_E_OUT_OF_RANGE := by
  unfold LoadFromReference CloneObject
  split
  case isTrue => simp
  case isFalse =>
    split
    case isFalse => simp
    case isTrue =>
      split
      case h_2 => simp
      case h_1 _ boxed cls fields _ =>
        split
        case h_1 => simp
        case h_2 _ object _ =>
          have copied := @copyValueType_inRange object
            (.valueType boxed cls fields)
          revert copied
          rcases CopyValueType object (.valueType boxed cls fields) with
            ⟨copy, _ | _ | _⟩
          · simp
          · simp
          · simp

theorem checkStored_inRange :
    checkStored system array value ≠ .failed .CLR_E_OUT_OF_RANGE := by
  unfold checkStored
  split
  case isFalse => simp
  case isTrue =>
    split
    case h_1 => simp
    case h_2 =>
      split
      case h_1 failure _ => simpa using toHResult_inRange failure
      case h_2 =>
        split
        case h_1 failure _ => simpa using toHResult_inRange failure
        case h_2 => simp
        case h_3 => simp

theorem storeToReference_inRange :
    (StoreToReference system array slot value).2 ≠
      .failed .CLR_E_OUT_OF_RANGE := by
  unfold StoreToReference
  split
  case isTrue =>
    split
    case h_1 => simp
    case h_2 =>
      split
      case isTrue => simp
      case isFalse => simp
  case isFalse =>
    have checked := @checkStored_inRange Descriptor system array value
    revert checked
    cases checkStored system array value with
    | S_OK done =>
        intro _
        exact reassign_inRange slot value
    | failed hr => simp
    | outside => simp

end Values

end Arrays

end NanoClr
