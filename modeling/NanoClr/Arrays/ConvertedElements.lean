import NanoClr.Arrays.ArrayCopy

/-!
# Elements in other arrays

What an element of one array is in another one: the same, or a value that goes
into a box or comes out of it.  Where `Copy` leaves just that.
-/

namespace NanoClr

namespace Arrays

open HeapBlock TypeSystem

/-! ## Values and boxes -/

/-- Data types of values; in an array of references they are in boxes. -/
def isValue : DataType → Bool
  | .dateTime | .timeSpan | .valueType => true
  | dt => isNumeric dt

/-- The type of the number in a box: dates and time spans are kept as `I8`. -/
def boxedType : DataType → DataType
  | .dateTime | .timeSpan => .i8
  | dt => dt

/-- A value in a box. -/
def boxed (cls : CLR_RT_TypeDef_Index) : Element → Option Element
  | .direct dt numeric =>
      some (.valueType true cls [.direct (boxedType dt) numeric])
  | .valueType _ cls fields => some (.valueType true cls fields)
  | _ => none

/-- The value in a box of a class; a number has the type that its class has. -/
def valueInBox (types : LoadedTypes) (cls : CLR_RT_TypeDef_Index)
    (fields : List Element) : Option Element :=
  match types.dataType cls with
  | none => none
  | some .valueType => some (.valueType false cls fields)
  | some dt =>
      match fields.head? with
      | some (.direct numberType numeric) =>
          if numberType = boxedType dt then
            some (.direct dt numeric)
          else
            none
      | _ => none

/-- The value that an element is or has in its box. -/
def valueIn (types : LoadedTypes) : Element → Option Element
  | .valueType true cls fields => valueInBox types cls fields
  | .valueType false cls fields => some (.valueType false cls fields)
  | .direct dt numeric => some (.direct dt numeric)
  | _ => none

/-- A value of the type of the elements of an array. -/
def ofElementType (array : CLR_RT_HeapBlock_Array Element) :
    Element → Bool
  | .direct dt _ => dt = array.m_typeOfElement
  | .valueType _ cls _ =>
      array.m_typeOfElement = .valueType && cls = array.reflectionData.m_type
  | _ => false

/-- The value that an array of values holds for an element of another array. -/
def unboxed (types : LoadedTypes) (array : CLR_RT_HeapBlock_Array Element)
    (element : Element) : Option Element :=
  ((valueIn types element).filter (ofElementType array)).map (held array)

/-- What an element of one array is in another one: the same in an array of
the same type and among references, else the value without its box or the box
with the value.  Not everything has a value of the type asked for. -/
def converted (types : LoadedTypes)
    (arraySrc arrayDst : CLR_RT_HeapBlock_Array Element)
    (element : Element) : Option Element :=
  if arraySrc.reflectionData = arrayDst.reflectionData then
    some element
  else if isValue arrayDst.m_typeOfElement then
    unboxed types arrayDst (held arraySrc element)
  else if isValue arraySrc.m_typeOfElement then
    boxed arraySrc.reflectionData.m_type (held arraySrc element)
  else
    some element

variable {Descriptor : Type} (system : ElementTypes Descriptor)

/-! ## Elements that `Copy` converts -/

/-- Every element is NULL or an instance of what a descriptor describes.  A
test may change the descriptor for the tests behind it. -/
def AllInstances : Descriptor → List Element → Prop
  | _, [] => True
  | descriptor, .null :: elements => AllInstances descriptor elements
  | descriptor, element :: elements =>
      ∃ later, system.isInstanceOf element descriptor = .ok (true, later) ∧
        AllInstances later elements

/-- An element that is a number of the type of the elements of an array, or the
box of one. -/
def HoldsNumber (types : LoadedTypes)
    (array : CLR_RT_HeapBlock_Array Element) (element : Element) : Prop :=
  ∃ value, valueIn types element = some value ∧
    ofElementType array value = true

/-- A value that is in no box. -/
def Element.isUnboxed : Element → Bool
  | .direct _ _ => true
  | .valueType boxed _ _ => !boxed
  | _ => false

/-- A box with a value. -/
def Element.isBoxed : Element → Bool
  | .valueType boxed _ _ => boxed
  | _ => false

/-- An element that does not go into a box and does not come out of one. -/
def StaysAsItIs (arraySrc arrayDst : CLR_RT_HeapBlock_Array Element)
    (element : Element) : Prop :=
  if isValue arrayDst.m_typeOfElement then
    element.isUnboxed = true ∧ ofElementType arrayDst element = true
  else
    isValue arraySrc.m_typeOfElement = true → element.isBoxed = true

/-- What `Copy` leaves of an element in the other array. -/
def transferred (arraySrc arrayDst : CLR_RT_HeapBlock_Array Element)
    (element : Element) : Element :=
  if arraySrc.reflectionData = arrayDst.reflectionData ∨
      (arraySrc.m_fReference && arrayDst.m_fReference) then
    element
  else
    storedValue system arrayDst (held arraySrc element)

section Converted

variable {system} {arraySrc arrayDst : CLR_RT_HeapBlock_Array Element}

theorem allInstances_cons
    {descriptor : Descriptor}
    {element : Element}
    {elements : List Element} :
    AllInstances system descriptor (element :: elements) ↔
      ∃ later, checkInstance system element descriptor = .S_OK later ∧
        AllInstances system later elements := by
  cases element with
  | null => simp [AllInstances, checkInstance]
  | _ =>
      rw [AllInstances, checkInstance]
      · constructor
        · rintro ⟨later, isInstance, rest⟩
          exact ⟨later, by rw [isInstance], rest⟩
        · rintro ⟨later, checked, rest⟩
          refine ⟨later, ?_, rest⟩
          split at checked
          · cases checked
          · cases checked
          next isInstance =>
            cases checked
            exact isInstance
      · simp
      · simp

theorem transferAll_cons
    {σ : Type}
    {transfer : Transfer σ}
    {state : σ}
    {slot element : Element}
    {slots elements : List Element} :
    (transferAll transfer state (slot :: slots)
        (element :: elements)).isSome = true ↔
      ∃ value later, transfer.load state element = .S_OK (value, later) ∧
        (transfer.store slot value).2 = .S_OK () ∧
          (transferAll transfer later slots elements).isSome = true := by
  rw [transferAll]
  cases transfer.load state element with
  | failed hr => simp
  | outside => simp
  | S_OK loaded =>
      obtain ⟨value, later⟩ := loaded
      rcases stored : transfer.store slot value with ⟨kept, _ | _ | _⟩
      · simp [stored]
      · simp [stored]
      · simp [stored]

theorem transferAll_casting
    {descriptor : Descriptor}
    {slots elements : List Element}
    (sameLength : slots.length = elements.length) :
    (transferAll (casting system) descriptor slots elements).isSome = true ↔
      AllInstances system descriptor elements ∧
        AllAssigned slots elements := by
  induction elements generalizing slots descriptor with
  | nil =>
      rw [List.eq_nil_of_length_eq_zero sameLength]
      simp [transferAll, AllInstances, AllAssigned]
  | cons element elements inductionHypothesis =>
      cases slots with
      | nil => cases sameLength
      | cons slot slots =>
          rw [transferAll_cons, allInstances_cons, AllAssigned,
            List.zip_cons_cons, List.forall_mem_cons, ← AllAssigned]
          have rest (later : Descriptor) := @inductionHypothesis later slots
            (Nat.succ.inj sameLength)
          simp only [rest]
          dsimp only [casting]
          cases checkInstance system element descriptor with
          | failed hr => simp [CallResult.map]
          | outside => simp [CallResult.map]
          | S_OK later =>
              simp [CallResult.map, reassign_ok_iff]
              tauto

theorem boxedType_of_isNumeric
    {dt : DataType}
    (numeric : isNumeric dt = true) :
    boxedType dt = dt := by
  cases dt <;> first | rfl | cases numeric

theorem isValue_of_isNumeric
    {dt : DataType}
    (numeric : isNumeric dt = true) :
    isValue dt = true := by
  cases dt <;> first | rfl | exact numeric

/-! ## Numbers -/

section Numbers

variable {value number : Element}

theorem held_number
    (isNumber : array.m_fReference = false) :
    held array value = .direct array.m_typeOfElement
      (truncated array.m_sizeOfElement value.NumericByRef) := by
  rw [held, isNumber]
  rfl

/-- A value of the type of the elements of an array of numbers is a number. -/
theorem dataType_of_ofElementType
    (numeric : isNumeric array.m_typeOfElement = true)
    (ofType : ofElementType array number = true) :
    number.DataType = array.m_typeOfElement := by
  cases number with
  | direct dt numericByRef => exact decide_eq_true_iff.mp ofType
  | valueType boxed cls fields =>
      rw [ofElementType, Bool.and_eq_true, decide_eq_true_iff] at ofType
      rw [ofType.1] at numeric
      cases numeric
  | _ => cases ofType

/-- The first field of a box for numbers. -/
theorem fixBoxingReference_box
    {cls : CLR_RT_TypeDef_Index}
    {fields : List Element}
    {dt : DataType}
    (isClass : system.types.dataType cls = some dt)
    (numeric : isNumeric dt = true) :
    FixBoxingReference system (.valueType true cls fields) = fields.head? := by
  rw [FixBoxingReference, isClass]
  cases dt with
  | valueType => cases numeric
  | _ => rfl

/-- `FixBoxingReference` finds the number of the type of an array of
numbers. -/
theorem fixBoxingReference_number
    (numeric : isNumeric array.m_typeOfElement = true)
    (isNumber : valueIn system.types value = some number)
    (ofType : ofElementType array number = true) :
    FixBoxingReference system value = some number ∧
      value.IsAValueType = false := by
  have isType := dataType_of_ofElementType numeric ofType
  have notObject : number.DataType ≠ .object := by
    intro isObject
    rw [← isType, isObject] at numeric
    cases numeric
  cases value with
  | direct dt numericByRef =>
      cases isNumber
      exact ⟨rfl, rfl⟩
  | null => cases isNumber
  | object ptr => cases isNumber
  | valueType boxed cls fields =>
      cases boxed with
      | false =>
          cases isNumber
          exact absurd rfl notObject
      | true =>
          refine ⟨?_, rfl⟩
          rw [valueIn, valueInBox] at isNumber
          cases isClass : system.types.dataType cls with
          | none =>
              rw [isClass] at isNumber
              cases isNumber
          | some dt =>
              rw [isClass] at isNumber
              split at isNumber
              next => cases isNumber
              next isSome =>
                cases isNumber
                exact absurd rfl notObject
              next isSome =>
                cases isSome
                split at isNumber
                next numberType numericByRef first =>
                  split at isNumber
                  next sameType =>
                    cases isNumber
                    have isNumeric : isNumeric dt = true := by
                      rw [← isType] at numeric
                      exact numeric
                    rw [fixBoxingReference_box isClass isNumeric, first,
                      sameType, boxedType_of_isNumeric isNumeric]
                  next => cases isNumber
                next => cases isNumber

theorem loadFromReference_eq
    {turn : Nat}
    (notValueType : (held array value).IsAValueType = false) :
    LoadFromReference system array turn value = .S_OK (held array value) := by
  rw [LoadFromReference, held]
  cases isReference : array.m_fReference with
  | false => rfl
  | true =>
      have unboxed : value.IsAValueType = false := by
        simpa [held, isReference] using notValueType
      simp [unboxed]

theorem converting_load_iff
    {state later : Descriptor × Nat}
    {element : Element} :
    (converting system arraySrc arrayDst).load state element =
        .S_OK (value, later) ↔
      LoadFromReference system arraySrc state.2 element = .S_OK value ∧
        checkInstance system value state.1 = .S_OK later.1 ∧
          later.2 = state.2 + 1 := by
  dsimp only [converting]
  cases LoadFromReference system arraySrc state.2 element with
  | failed hr => simp
  | outside => simp
  | S_OK elem =>
      dsimp only
      constructor
      · intro loads
        cases checked : checkInstance system elem state.1 with
        | failed hr =>
            rw [checked] at loads
            cases loads
        | outside =>
            rw [checked] at loads
            cases loads
        | S_OK next =>
            rw [checked] at loads
            cases loads
            exact ⟨rfl, checked, rfl⟩
      · rintro ⟨isLoaded, checked, isNext⟩
        cases isLoaded
        rw [checked, CallResult.map, ← isNext]

/-- What is loaded in every round is an instance. -/
theorem allInstances_of_converting
    {state : Descriptor × Nat}
    {slots elements : List Element}
    (sameLength : slots.length = elements.length)
    (transfers : (transferAll (converting system arraySrc arrayDst) state slots
      elements).isSome = true) :
    AllInstances system state.1 (elements.map (held arraySrc)) := by
  induction elements generalizing slots state with
  | nil => trivial
  | cons element elements inductionHypothesis =>
      cases slots with
      | nil => cases sameLength
      | cons slot slots =>
          obtain ⟨value, later, loads, -, rest⟩ := transferAll_cons.mp transfers
          obtain ⟨isLoaded, checked, -⟩ := converting_load_iff.mp loads
          rw [loadFromReference_value isLoaded] at checked
          rw [List.map_cons, allInstances_cons]
          exact ⟨later.1, checked,
            inductionHypothesis (Nat.succ.inj sameLength) rest⟩

section IntoNumbers

variable (isNumbers : arrayDst.m_fReference = false)
  (numeric : isNumeric arrayDst.m_typeOfElement = true)

include isNumbers numeric

theorem storeToReference_ok
    {slot : Element}
    (holds : HoldsNumber system.types arrayDst value) :
    (StoreToReference system arrayDst slot value).2 = .S_OK () := by
  obtain ⟨number, isNumber, ofType⟩ := holds
  obtain ⟨fixes, -⟩ := fixBoxingReference_number numeric isNumber ofType
  have isType := dataType_of_ofElementType numeric ofType
  rw [StoreToReference, isNumbers, fixes]
  dsimp only
  rw [if_pos Bool.not_false, if_neg (not_not.mpr isType)]

/-- Instances that hold numbers of the right type are all stored. -/
theorem transferAll_numbers
    {state : Descriptor × Nat}
    {slots elements : List Element}
    (sameLength : slots.length = elements.length)
    (instances :
      AllInstances system state.1 (elements.map (held arraySrc)))
    (holdNumbers : ∀ element ∈ elements,
      HoldsNumber system.types arrayDst (held arraySrc element)) :
    (transferAll (converting system arraySrc arrayDst) state slots
      elements).isSome = true := by
  induction elements generalizing slots state with
  | nil =>
      rw [List.eq_nil_of_length_eq_zero sameLength]
      simp [transferAll]
  | cons element elements inductionHypothesis =>
      cases slots with
      | nil => cases sameLength
      | cons slot slots =>
          rw [List.map_cons, allInstances_cons] at instances
          obtain ⟨later, checked, rest⟩ := instances
          obtain ⟨holds, others⟩ := List.forall_mem_cons.mp holdNumbers
          have stores :=
            @storeToReference_ok _ _ _ _ isNumbers numeric slot holds
          obtain ⟨number, isNumber, ofType⟩ := holds
          obtain ⟨-, notValueType⟩ :=
            fixBoxingReference_number numeric isNumber ofType
          rw [transferAll_cons]
          refine ⟨held arraySrc element, (later, state.2 + 1), ?_, stores, ?_⟩
          · exact converting_load_iff.mpr
              ⟨loadFromReference_eq notValueType, checked, rfl⟩
          · exact inductionHypothesis (Nat.succ.inj sameLength) rest others

/-- What is stored is the number that the element holds, if it holds one. -/
theorem unboxed_eq_storedValue_iff :
    unboxed system.types arrayDst value =
        some (storedValue system arrayDst value) ↔
      HoldsNumber system.types arrayDst value := by
  rw [unboxed, HoldsNumber]
  constructor
  · intro isUnboxed
    obtain ⟨number, isNumber, -⟩ := Option.map_eq_some_iff.mp isUnboxed
    exact ⟨number, Option.filter_eq_some_iff.mp isNumber⟩
  · rintro ⟨number, isNumber, ofType⟩
    obtain ⟨fixes, -⟩ := fixBoxingReference_number numeric isNumber ofType
    rw [isNumber, Option.filter_some, if_pos ofType, Option.map_some,
      held_number isNumbers, storedValue, isNumbers, fixes]
    rfl

end IntoNumbers

end Numbers

/-! ## References -/

section References

variable {element : Element}

theorem valueIn_eq_some_self_iff :
    valueIn system.types element = some element ↔
      element.isUnboxed = true := by
  cases element with
  | valueType boxed cls fields =>
      cases boxed with
      | false => simp [valueIn, Element.isUnboxed]
      | true =>
          rw [valueIn, valueInBox, Element.isUnboxed]
          split
          · simp
          · simp
          · split
            · split <;> simp
            · simp
  | _ => simp [valueIn, Element.isUnboxed]

theorem boxed_eq_some_self_iff {cls : CLR_RT_TypeDef_Index} :
    boxed cls element = some element ↔ element.isBoxed = true := by
  cases element with
  | valueType isBoxed cls fields =>
      simp [boxed, Element.isBoxed, eq_comm]
  | _ => simp [boxed, Element.isBoxed]

theorem unboxed_eq_some_self_iff
    (isReference : arrayDst.m_fReference = true) :
    unboxed system.types arrayDst element = some element ↔
      element.isUnboxed = true ∧ ofElementType arrayDst element = true := by
  have same : held arrayDst = id := by
    funext other
    rw [held, isReference]
    rfl
  rw [unboxed, same, Option.map_id, id, Option.filter_eq_some_iff,
    valueIn_eq_some_self_iff]

/-- What is stored among references is what was loaded. -/
theorem converted_eq_held_iff
    (kindSrc : arraySrc.m_fReference = !isNumeric arraySrc.m_typeOfElement)
    (isReference : arrayDst.m_fReference = true)
    (otherType : arraySrc.reflectionData ≠ arrayDst.reflectionData) :
    converted system.types arraySrc arrayDst element =
        some (held arraySrc element) ↔
      StaysAsItIs arraySrc arrayDst (held arraySrc element) := by
  rw [converted, if_neg otherType, StaysAsItIs]
  cases isValue arrayDst.m_typeOfElement with
  | true =>
      rw [if_pos rfl, if_pos rfl]
      exact unboxed_eq_some_self_iff isReference
  | false =>
      rw [if_neg Bool.false_ne_true, if_neg Bool.false_ne_true]
      cases values : isValue arraySrc.m_typeOfElement with
      | true =>
          rw [if_pos rfl, boxed_eq_some_self_iff]
          exact ⟨fun isBoxed _ => isBoxed, fun isBoxed => isBoxed rfl⟩
      | false =>
          have notNumeric : isNumeric arraySrc.m_typeOfElement = false := by
            by_contra numeric
            rw [isValue_of_isNumeric (by simpa using numeric)] at values
            cases values
          rw [if_neg Bool.false_ne_true, held, kindSrc, notNumeric]
          simp

theorem not_staysAsItIs_number
    {element : Element}
    (kindSrc : arraySrc.m_fReference = !isNumeric arraySrc.m_typeOfElement)
    (kindDst : arrayDst.m_fReference = !isNumeric arrayDst.m_typeOfElement)
    (fromNumbers : arraySrc.m_fReference = false)
    (toReferences : arrayDst.m_fReference = true) :
    ¬ StaysAsItIs arraySrc arrayDst (held arraySrc element) := by
  have numeric : isNumeric arraySrc.m_typeOfElement = true := by
    simpa [kindSrc] using fromNumbers
  have notNumeric : isNumeric arrayDst.m_typeOfElement = false := by
    simpa [kindDst] using toReferences
  rw [held_number fromNumbers, StaysAsItIs, isValue_of_isNumeric numeric]
  split
  next =>
    rintro ⟨-, ofType⟩
    rw [← decide_eq_true_iff.mp ofType, numeric] at notNumeric
    cases notNumeric
  next =>
    intro isBoxed
    cases isBoxed rfl

end References

/-! ## Ranges of elements -/

theorem map_held
    {elements : List Element}
    (isReference : arraySrc.m_fReference = true) :
    elements.map (held arraySrc) = elements := by
  have same : held arraySrc = id := by
    funext other
    rw [held, isReference]
    rfl
  rw [same, List.map_id]

/-- Into references: what is assigned are the elements themselves. -/
theorem intoReferences_iff
    {descriptor : Descriptor}
    {slots elements : List Element}
    (kindSrc : arraySrc.m_fReference = !isNumeric arraySrc.m_typeOfElement)
    (kindDst : arrayDst.m_fReference = !isNumeric arrayDst.m_typeOfElement)
    (otherType : arraySrc.reflectionData ≠ arrayDst.reflectionData)
    (toReferences : arrayDst.m_fReference = true)
    (sameLength : slots.length = elements.length)
    (some_ : elements ≠ []) :
    ((if arraySrc.m_fReference = true then
        (transferAll (casting system) descriptor slots elements).isSome = true
      else
        (transferAll (converting system arraySrc arrayDst) (descriptor, 0)
          slots elements).isSome = true) ∧
      ∀ element ∈ elements, converted system.types arraySrc arrayDst element =
        some (transferred system arraySrc arrayDst element)) ↔
      AllInstances system descriptor (elements.map (held arraySrc)) ∧
        AllAssigned slots (elements.map (held arraySrc)) ∧
          ∀ element ∈ elements.map (held arraySrc),
            StaysAsItIs arraySrc arrayDst element := by
  have stored (element : Element) :
      transferred system arraySrc arrayDst element = held arraySrc element := by
    rw [transferred, storedValue, toReferences, Bool.and_true]
    split
    next isReference =>
      rw [held, isReference.resolve_left otherType]
      rfl
    next => rfl
  have stays : (∀ element ∈ elements,
      converted system.types arraySrc arrayDst element =
        some (transferred system arraySrc arrayDst element)) ↔
      ∀ element ∈ elements.map (held arraySrc),
        StaysAsItIs arraySrc arrayDst element := by
    rw [List.forall_mem_map]
    apply forall₂_congr
    intro element _
    rw [stored, converted_eq_held_iff kindSrc toReferences otherType]
  rw [stays]
  cases fromReferences : arraySrc.m_fReference with
  | true =>
      rw [if_pos rfl, map_held fromReferences, transferAll_casting sameLength,
        and_assoc]
  | false =>
      obtain ⟨element, isElement⟩ := List.exists_mem_of_ne_nil _ some_
      have never : ¬ ∀ element ∈ elements.map (held arraySrc),
          StaysAsItIs arraySrc arrayDst element := by
        intro stays
        exact not_staysAsItIs_number kindSrc kindDst fromReferences
          toReferences (stays _ (List.mem_map_of_mem isElement))
      tauto

/-- Into numbers: what is stored are the numbers that the elements hold. -/
theorem intoNumbers_iff
    {descriptor : Descriptor}
    {slots elements : List Element}
    (kindDst : arrayDst.m_fReference = !isNumeric arrayDst.m_typeOfElement)
    (otherType : arraySrc.reflectionData ≠ arrayDst.reflectionData)
    (toNumbers : arrayDst.m_fReference = false)
    (sameLength : slots.length = elements.length) :
    ((transferAll (converting system arraySrc arrayDst) (descriptor, 0)
        slots elements).isSome = true ∧
      ∀ element ∈ elements, converted system.types arraySrc arrayDst element =
        some (transferred system arraySrc arrayDst element)) ↔
      AllInstances system descriptor (elements.map (held arraySrc)) ∧
        ∀ element ∈ elements.map (held arraySrc),
          HoldsNumber system.types arrayDst element := by
  have numeric : isNumeric arrayDst.m_typeOfElement = true := by
    simpa [kindDst] using toNumbers
  have holdNumbers : (∀ element ∈ elements,
      converted system.types arraySrc arrayDst element =
        some (transferred system arraySrc arrayDst element)) ↔
      ∀ element ∈ elements.map (held arraySrc),
        HoldsNumber system.types arrayDst element := by
    rw [List.forall_mem_map]
    apply forall₂_congr
    intro element _
    have noReferences : ¬ (arraySrc.reflectionData = arrayDst.reflectionData ∨
        (arraySrc.m_fReference && arrayDst.m_fReference) = true) := by
      simp [otherType, toNumbers]
    rw [transferred, if_neg noReferences, converted, if_neg otherType,
      if_pos (isValue_of_isNumeric numeric),
      unboxed_eq_storedValue_iff toNumbers numeric]
  rw [holdNumbers]
  apply and_congr_left
  intro holds
  constructor
  · intro transfers
    exact allInstances_of_converting sameLength transfers
  · intro instances
    exact transferAll_numbers toNumbers numeric sameLength instances
      (List.forall_mem_map.mp holds)

end Converted

end Arrays

end NanoClr
