import NanoClr.Arrays.ConvertedElements

/-!
# What copying arrays does

`Copy` has the effect of `memmove` wherever its range check is right, every
element can be converted, and none needs a box or has to leave one for an array
of references.
-/

namespace NanoClr

namespace Arrays

open HeapBlock TypeSystem

/-! ## Ranges and elements -/

/-- An array as it lies in the heap. -/
structure Located (types : LoadedTypes)
    (array : CLR_RT_HeapBlock_Array Element) : Prop where
  length : array.elements.length = array.m_numOfElements.toNat
  type : elementType types array.reflectionData = some array.m_typeOfElement
  size : array.m_sizeOfElement = m_sizeInBytes array.m_typeOfElement
  reference : array.m_fReference = !isNumeric array.m_typeOfElement
  bytes : arrayBytes array.m_numOfElements array.m_sizeOfElement ≤
    sizeofHeapBlock.toNat * HB_MaxSize

/-- A range that lies inside an array. -/
def InsideArray (array : CLR_RT_HeapBlock_Array Element)
    (index length : Int32) : Prop :=
  0 ≤ index.toInt ∧ 0 ≤ length.toInt ∧
    index.toInt + length.toInt ≤ array.m_numOfElements.toNat

/-- A range that ends behind an array, at an end that is a signed number. -/
def EndsBehind (array : CLR_RT_HeapBlock_Array Element)
    (index length : Int32) : Prop :=
  array.m_numOfElements.toNat < index.toInt + length.toInt ∧
    index.toInt + length.toInt < 2 ^ 31

variable {Descriptor : Type} (system : ElementTypes Descriptor)

/-- The elements of a range. -/
def range (array : CLR_RT_HeapBlock_Array Element) (index length : Int32) :
    List Element :=
  (array.elements.drop index.toInt.toNat).take length.toInt.toNat

/-- The elements of the range can all be copied.  Between arrays of one type
references have to be assignable.  In another array they are instances of its
element type; an array of numbers takes numbers of its type, and an array of
references takes what can be assigned as it is, without going into a box or
coming out of one. -/
def ElementsConvert (arraySrc : CLR_RT_HeapBlock_Array Element)
    (indexSrc : Int32) (arrayDst : CLR_RT_HeapBlock_Array Element)
    (indexDst length : Int32) : Prop :=
  let slots := range arrayDst indexDst length
  let elements := (range arraySrc indexSrc length).map (held arraySrc)
  if arraySrc.reflectionData = arrayDst.reflectionData then
    arraySrc.m_fReference = true → AllAssigned slots elements
  else
    ∃ descriptor,
      system.describeElements arrayDst.reflectionData = .ok descriptor ∧
        AllInstances system descriptor elements ∧
          if arrayDst.m_fReference then
            AllAssigned slots elements ∧
              ∀ element ∈ elements, StaysAsItIs arraySrc arrayDst element
          else
            ∀ element ∈ elements, HoldsNumber system.types arrayDst element

/-- The code loads, checks and stores every element of a range. -/
def Transfers (arraySrc : CLR_RT_HeapBlock_Array Element) (indexSrc : Int32)
    (arrayDst : CLR_RT_HeapBlock_Array Element)
    (indexDst length : Int32) : Prop :=
  let slots := range arrayDst indexDst length
  let elements := range arraySrc indexSrc length
  if arraySrc.reflectionData = arrayDst.reflectionData then
    arraySrc.m_fReference = true → AllAssigned slots elements
  else
    ∃ descriptor,
      system.describeElements arrayDst.reflectionData = .ok descriptor ∧
        if (arraySrc.m_fReference && arrayDst.m_fReference) = true then
          (transferAll (casting system) descriptor slots elements).isSome = true
        else
          (transferAll (converting system arraySrc arrayDst) (descriptor, 0)
            slots elements).isSome = true

/-! ## The property and its condition -/

/-- The effect of `memmove`: a range inside both arrays leaves its elements in
the other range, as they were before or with their values in or out of boxes,
and nothing else changes; any other range is rejected with no change. -/
def MovesElements (heap : ArrayHeap) (src : Nat) (indexSrc : Int32)
    (dst : Nat) (indexDst length : Int32)
    (copied : ArrayHeap × CallResult Unit) : Prop :=
  (InsideArray (heap src) indexSrc length ∧
      InsideArray (heap dst) indexDst length →
    ∃ moved,
      (range (heap src) indexSrc length).map
        (converted system.types (heap src) (heap dst)) = moved.map some ∧
      copied = (Function.update heap dst { heap dst with
        elements := splice (heap dst).elements indexDst.toInt.toNat moved },
          .S_OK ())) ∧
  (¬ (InsideArray (heap src) indexSrc length ∧
      InsideArray (heap dst) indexDst length) →
    copied = (heap, .failed .CLR_E_OUT_OF_RANGE))

/-- Inside both arrays every element can be converted, if any is copied at all.
Elsewhere there are elements to copy, and an argument is negative or an end
that is too large does not wrap around. -/
def CopyCondition (heap : ArrayHeap) (src : Nat) (indexSrc : Int32)
    (dst : Nat) (indexDst length : Int32) : Prop :=
  (InsideArray (heap src) indexSrc length ∧
      InsideArray (heap dst) indexDst length →
    length = 0 ∨ (src = dst ∧ indexSrc = indexDst) ∨
      ElementsConvert system (heap src) indexSrc (heap dst) indexDst
        length) ∧
  (¬ (InsideArray (heap src) indexSrc length ∧
      InsideArray (heap dst) indexDst length) →
    length ≠ 0 ∧
      (length.toInt < 0 ∨ indexSrc.toInt < 0 ∨ indexDst.toInt < 0 ∨
        EndsBehind (heap src) indexSrc length ∨
          EndsBehind (heap dst) indexDst length))

/-! ## Arrays in the heap -/

section Arrays

variable {system}

namespace Located

variable {array : CLR_RT_HeapBlock_Array Element}

theorem sized (located : Located system.types array) :
    0 < array.m_sizeOfElement.toNat := by
  have isType := located.type
  rw [elementType] at isType
  split at isType
  case isFalse => cases isType
  case isTrue =>
    have hasSize := (Option.filter_eq_some_iff.mp isType).2
    rw [bne_iff_ne, ← located.size] at hasSize
    rw [Nat.pos_iff_ne_zero]
    intro isZero
    exact hasSize (UInt8.toNat_inj.mp isZero)

theorem small (located : Located system.types array) :
    array.m_sizeOfElement.toNat * array.elements.length ≤ 12 * 0xFFFF := by
  have bytes := located.bytes
  have blocks : sizeofHeapBlock.toNat * HB_MaxSize = 12 * 0xFFFF := rfl
  rw [arrayBytes, ← located.length, blocks] at bytes
  rw [Nat.mul_comm]
  omega

theorem addressed (located : Located system.types array) :
    array.Addressed where
  sized := located.sized
  small := Nat.lt_of_le_of_lt located.small (by decide)

theorem few (located : Located system.types array) :
    array.m_numOfElements.toNat < 2 ^ 31 := by
  have bound := located.small
  have atLeast := Nat.le_mul_of_pos_left array.elements.length located.sized
  rw [← located.length]
  omega

theorem withElements
    {elements : List Element}
    (located : Located system.types array)
    (sameLength : elements.length = array.elements.length) :
    Located system.types { array with elements := elements } where
  length := sameLength.trans located.length
  type := located.type
  size := located.size
  reference := located.reference
  bytes := located.bytes

end Located

/-- The end of a range as the range check computes it. -/
theorem endsBehind_iff
    {array : CLR_RT_HeapBlock_Array Element}
    {index length : Int32}
    (located : Located system.types array)
    (indexNonneg : ¬ index.toInt < 0)
    (lengthNonneg : ¬ length.toInt < 0) :
    array.m_numOfElements.toInt32 < length + index ↔
      EndsBehind array index length := by
  have few := located.few
  have number : array.m_numOfElements.toInt32.toInt =
      array.m_numOfElements.toNat := by
    rw [← UInt32.ofNat_toNat (x := array.m_numOfElements),
      UInt32.toInt32_ofNat', Int32.toInt_ofNat_of_lt (by simpa using few)]
    simp
  have indexBelow := Int32.toInt_lt index
  have lengthBelow := Int32.toInt_lt length
  rw [Int32.lt_iff_toInt_lt, Int32.toInt_add, number, EndsBehind]
  by_cases wraps : index.toInt + length.toInt < 2 ^ 31
  · rw [Int.bmod_eq_of_le (by omega) (by omega)]
    omega
  · have wrapped : (length.toInt + index.toInt).bmod (2 ^ 32) =
        length.toInt + index.toInt - 2 ^ 32 := by
      rw [← Int.sub_bmod_right, Int.bmod_eq_of_le (by omega) (by omega)]
      rfl
    rw [wrapped]
    omega

/-! ## Paths -/

variable {heap : ArrayHeap} {src dst : Nat} {indexSrc indexDst length : Int32}

theorem outOfRange_iff
    (locatedSrc : Located system.types (heap src))
    (locatedDst : Located system.types (heap dst)) :
    outOfRange (heap src) indexSrc (heap dst) indexDst length ↔
      length.toInt < 0 ∨ indexSrc.toInt < 0 ∨ indexDst.toInt < 0 ∨
        EndsBehind (heap src) indexSrc length ∨
          EndsBehind (heap dst) indexDst length := by
  unfold outOfRange
  dsimp only
  simp only [Int32.lt_iff_toInt_lt (x := length),
    Int32.lt_iff_toInt_lt (x := indexSrc),
    Int32.lt_iff_toInt_lt (x := indexDst), Int32.toInt_zero]
  by_cases lengthNonneg : length.toInt < 0
  · simp [lengthNonneg]
  by_cases srcNonneg : indexSrc.toInt < 0
  · simp [srcNonneg]
  by_cases dstNonneg : indexDst.toInt < 0
  · simp [dstNonneg]
  rw [endsBehind_iff locatedSrc srcNonneg lengthNonneg,
    endsBehind_iff locatedDst dstNonneg lengthNonneg]

theorem not_outOfRange
    (locatedSrc : Located system.types (heap src))
    (locatedDst : Located system.types (heap dst))
    (insideSrc : InsideArray (heap src) indexSrc length)
    (insideDst : InsideArray (heap dst) indexDst length) :
    ¬ outOfRange (heap src) indexSrc (heap dst) indexDst length := by
  rw [outOfRange_iff locatedSrc locatedDst]
  unfold InsideArray at insideSrc insideDst
  unfold EndsBehind
  omega

/-- What a copy comes to that moves elements if a condition holds, and fails
otherwise. -/
def MovesIf (heap : ArrayHeap) (dst : Nat) (indexDst : Int32)
    (moved : List Element) (condition : Prop)
    (copied : ArrayHeap × CallResult Unit) : Prop :=
  (condition → copied = (Function.update heap dst { heap dst with
      elements := splice (heap dst).elements indexDst.toInt.toNat moved },
    .S_OK ())) ∧
  (copied.2 = .S_OK () → condition)

theorem unsigned_eq {value : Int32} (nonneg : 0 ≤ value.toInt) :
    value.toUInt32 = UInt32.ofNat value.toInt.toNat ∧
      value.toUInt32.toNat = value.toInt.toNat := by
  have upper := Int32.toInt_lt value
  have isNat : value = Int32.ofNat value.toInt.toNat := by
    rw [← Int32.toInt_inj, Int32.toInt_ofNat_of_lt (by omega)]
    omega
  have unsigned : value.toUInt32 = UInt32.ofNat value.toInt.toNat := by
    rw [← Int32.toUInt32_ofNat', ← isNat]
  refine ⟨unsigned, ?_⟩
  rw [unsigned, UInt32.toNat_ofNat_of_lt' (show _ < 2 ^ 32 by omega)]

theorem InsideArray.fits
    {array : CLR_RT_HeapBlock_Array Element}
    {index : Int32}
    (inside : InsideArray array index length)
    (located : Located system.types array) :
    index.toInt.toNat + length.toInt.toNat ≤ array.elements.length := by
  obtain ⟨_, _, below⟩ := inside
  rw [located.length]
  omega

theorem length_range
    {array : CLR_RT_HeapBlock_Array Element}
    {index : Int32}
    (located : Located system.types array)
    (inside : InsideArray array index length) :
    (range array index length).length = length.toInt.toNat := by
  have fits := inside.fits located
  rw [range, List.length_take, List.length_drop]
  omega

theorem range_ne_nil
    {array : CLR_RT_HeapBlock_Array Element}
    {index : Int32}
    (located : Located system.types array)
    (inside : InsideArray array index length)
    (some_ : length ≠ 0) :
    range array index length ≠ [] := by
  intro isNil
  have isLength := length_range located inside
  rw [isNil, List.length_nil] at isLength
  have nonneg := inside.2.1
  apply some_
  rw [← Int32.toInt_inj, Int32.toInt_zero]
  omega

theorem casting_stores
    (descriptor : Descriptor)
    (element value : Element)
    (later : Descriptor)
    (slot : Element)
    (loads : (casting system).load descriptor element = .S_OK (value, later))
    (stores : ((casting system).store slot value).2 = .S_OK ()) :
    ((casting system).store slot value).1 = id element := by
  dsimp only [casting] at loads stores ⊢
  cases checked : checkInstance system element descriptor with
  | failed hr =>
      rw [checked] at loads
      cases loads
  | outside =>
      rw [checked] at loads
      cases loads
  | S_OK next =>
      rw [checked] at loads
      cases loads
      exact reassign_value slot element stores

theorem converting_stores
    {arraySrc arrayDst : CLR_RT_HeapBlock_Array Element}
    (state : Descriptor × Nat)
    (element value : Element)
    (later : Descriptor × Nat)
    (slot : Element)
    (loads : (converting system arraySrc arrayDst).load state element =
      .S_OK (value, later))
    (stores : ((converting system arraySrc arrayDst).store slot value).2 =
      .S_OK ()) :
    ((converting system arraySrc arrayDst).store slot value).1 =
      storedValue system arrayDst (held arraySrc element) := by
  dsimp only [converting] at loads stores ⊢
  rw [storeToReference_value stores]
  cases isLoaded : LoadFromReference system arraySrc state.2 element with
  | failed hr =>
      rw [isLoaded] at loads
      cases loads
  | outside =>
      rw [isLoaded] at loads
      cases loads
  | S_OK elem =>
      rw [isLoaded] at loads
      dsimp only at loads
      cases checked : checkInstance system elem state.1 with
      | failed hr =>
          rw [checked] at loads
          cases loads
      | outside =>
          rw [checked] at loads
          cases loads
      | S_OK next =>
          rw [checked] at loads
          cases loads
          rw [loadFromReference_value isLoaded]

theorem casting_inRange
    (descriptor : Descriptor)
    (element : Element) :
    (casting system).load descriptor element ≠
      .failed .CLR_E_OUT_OF_RANGE :=
  CallResult.map_ne_failed checkInstance_inRange

theorem converting_inRange
    {arraySrc arrayDst : CLR_RT_HeapBlock_Array Element}
    (state : Descriptor × Nat)
    (element : Element) :
    (converting system arraySrc arrayDst).load state element ≠
      .failed .CLR_E_OUT_OF_RANGE := by
  have loads := @loadFromReference_inRange Descriptor system arraySrc element
    state.2
  dsimp only [converting]
  revert loads
  cases LoadFromReference system arraySrc state.2 element with
  | failed hr => simp
  | outside => simp
  | S_OK elem =>
      intro _
      exact CallResult.map_ne_failed checkInstance_inRange

/-- What is transferred is what the elements should be, exactly where they
convert. -/
theorem transfers_iff
    (locatedSrc : Located system.types (heap src))
    (locatedDst : Located system.types (heap dst))
    (insideSrc : InsideArray (heap src) indexSrc length)
    (insideDst : InsideArray (heap dst) indexDst length)
    (some_ : length ≠ 0) :
    Transfers system (heap src) indexSrc (heap dst) indexDst length ∧
        (range (heap src) indexSrc length).map
            (converted system.types (heap src) (heap dst)) =
          ((range (heap src) indexSrc length).map
            (transferred system (heap src) (heap dst))).map some ↔
      ElementsConvert system (heap src) indexSrc (heap dst) indexDst
        length := by
  have sameLength := (length_range locatedDst insideDst).trans
    (length_range locatedSrc insideSrc).symm
  rw [List.map_map, List.map_inj_left]
  unfold Transfers ElementsConvert
  dsimp only [Function.comp_apply]
  by_cases sameType : (heap src).reflectionData = (heap dst).reflectionData
  · have same : ∀ element ∈ range (heap src) indexSrc length,
        converted system.types (heap src) (heap dst) element =
          some (transferred system (heap src) (heap dst) element) := by
      intro element _
      rw [converted, if_pos sameType, transferred, if_pos (Or.inl sameType)]
    rw [if_pos sameType, if_pos sameType, and_iff_left same]
    apply forall_congr'
    intro isReference
    rw [map_held isReference]
  · rw [if_neg sameType, if_neg sameType, ← exists_and_right]
    apply exists_congr
    intro descriptor
    rw [and_assoc, and_congr_right_iff]
    intro _
    cases toReferences : (heap dst).m_fReference with
    | true =>
        rw [if_pos rfl, Bool.and_true]
        exact intoReferences_iff locatedSrc.reference locatedDst.reference
          sameType toReferences sameLength
          (range_ne_nil locatedSrc insideSrc some_)
    | false =>
        rw [Bool.and_false, if_neg Bool.false_ne_true,
          if_neg Bool.false_ne_true]
        exact intoNumbers_iff locatedDst.reference sameType toReferences
          sameLength

section Inside

variable (locatedSrc : Located system.types (heap src))
  (locatedDst : Located system.types (heap dst))
  (insideSrc : InsideArray (heap src) indexSrc length)
  (insideDst : InsideArray (heap dst) indexDst length)

include locatedSrc locatedDst insideSrc insideDst

/-- Rounds from the first element on, at least where no element is overwritten
before it is read. -/
theorem copyRounds_moves
    {σ : Type}
    {transfer : Transfer σ}
    {state : σ}
    {image : Element → Element}
    (apart : src ≠ dst ∨ indexDst.toInt ≤ indexSrc.toInt)
    (stores : ∀ state element value later slot,
      transfer.load state element = .S_OK (value, later) →
        (transfer.store slot value).2 = .S_OK () →
          (transfer.store slot value).1 = image element) :
    MovesIf heap dst indexDst ((range (heap src) indexSrc length).map image)
      ((transferAll transfer state (range (heap dst) indexDst length)
        (range (heap src) indexSrc length)).isSome = true)
      (copyRounds transfer src dst 1 length.toUInt32.toNat state
        indexSrc.toUInt32 indexDst.toUInt32 heap) := by
  have sameLength := (length_range locatedDst insideDst).trans
    (length_range locatedSrc insideSrc).symm
  have moves := @copyRounds_up σ transfer heap src dst length.toInt.toNat
    indexSrc.toInt.toNat indexDst.toInt.toNat state locatedSrc.addressed
    locatedDst.addressed (apart.imp_right Int.toNat_le_toNat)
    (insideSrc.fits locatedSrc) (insideDst.fits locatedDst)
  rw [(unsigned_eq insideSrc.1).1, (unsigned_eq insideDst.1).1,
    (unsigned_eq insideSrc.2.1).2]
  rw [← range, ← range] at moves
  cases transfers : transferAll transfer state
      (range (heap dst) indexDst length) (range (heap src) indexSrc length) with
  | none =>
      rw [transfers] at moves
      exact ⟨fun isSome => absurd isSome Bool.false_ne_true,
        fun succeeds => absurd succeeds moves⟩
  | some stored =>
      rw [transfers] at moves
      rw [transferAll_eq_map stores sameLength transfers] at moves
      exact ⟨fun _ => moves.2, fun _ => rfl⟩

/-- The copy within an array or between two arrays of one type. -/
theorem copySameType_moves :
    MovesIf heap dst indexDst (range (heap src) indexSrc length)
      (AllAssigned (range (heap dst) indexDst length)
        (range (heap src) indexSrc length))
      (copySameType heap src indexSrc.toUInt32 dst indexDst.toUInt32
        length.toUInt32) := by
  have sameLength := (length_range locatedDst insideDst).trans
    (length_range locatedSrc insideSrc).symm
  have fitsSrc := insideSrc.fits locatedSrc
  have fitsDst := insideDst.fits locatedDst
  have order (same : src = dst) :
      GetElement (heap src) indexSrc.toUInt32 <
          GetElement (heap dst) indexDst.toUInt32 ↔
        indexSrc.toInt.toNat < indexDst.toInt.toNat := by
    subst same
    rw [UInt32.lt_iff_toNat_lt, (unsigned_eq insideSrc.1).1,
      (unsigned_eq insideDst.1).1,
      getElement_toNat locatedSrc.addressed (by omega),
      getElement_toNat locatedSrc.addressed (by omega),
      Nat.mul_lt_mul_left locatedSrc.sized]
  unfold copySameType
  dsimp only
  by_cases backwards : src = dst ∧ indexSrc.toInt.toNat < indexDst.toInt.toNat
  · obtain ⟨same, up⟩ := backwards
    rw [if_pos ⟨same, (order same).mpr up⟩]
    subst same
    have moves := @copyRounds_down heap src length.toInt.toNat
      indexSrc.toInt.toNat indexDst.toInt.toNat locatedSrc.addressed
      (Nat.le_of_lt up) fitsDst
    have last (index : Nat) :
        UInt32.ofNat index + (UInt32.ofNat length.toInt.toNat - 1) =
          UInt32.ofNat (index + length.toInt.toNat) - 1 := by
      rw [UInt32.ofNat_add, UInt32.sub_eq_add_neg, UInt32.sub_eq_add_neg,
        UInt32.add_assoc]
    rw [(unsigned_eq insideSrc.2.1).2, (unsigned_eq insideSrc.1).1,
      (unsigned_eq insideDst.1).1, (unsigned_eq insideSrc.2.1).1, last, last]
    exact moves
  · rw [if_neg fun isBackwards => backwards
      ⟨isBackwards.1, (order isBackwards.1).mp isBackwards.2⟩]
    have apart : src ≠ dst ∨ indexDst.toInt ≤ indexSrc.toInt := by
      rw [not_and_or, Nat.not_lt] at backwards
      have nonneg := insideSrc.1
      have nonneg' := insideDst.1
      omega
    have moves : MovesIf heap dst indexDst
        ((range (heap src) indexSrc length).map id)
        ((transferAll reassigning () (range (heap dst) indexDst length)
          (range (heap src) indexSrc length)).isSome = true)
        (copyRounds reassigning src dst 1 length.toUInt32.toNat ()
          indexSrc.toUInt32 indexDst.toUInt32 heap) := by
      apply copyRounds_moves locatedSrc locatedDst insideSrc insideDst apart
      intro state element value later slot loads stores
      cases loads
      exact reassign_value slot _ stores
    rw [List.map_id, transferAll_reassigning sameLength] at moves
    exact moves

/-- The copy of the bytes of numbers. -/
theorem memmoveElements_moves :
    MovesIf heap dst indexDst (range (heap src) indexSrc length) True
      (memmoveElements heap src indexSrc.toUInt32 dst indexDst.toUInt32
        length.toUInt32) := by
  have fitsSrc := insideSrc.fits locatedSrc
  have fitsDst := insideDst.fits locatedDst
  have count : (length.toUInt32 *
      (heap src).m_sizeOfElement.toUInt32).toNat /
        (heap src).m_sizeOfElement.toNat = length.toInt.toNat := by
    have few : (heap src).m_sizeOfElement.toNat * length.toInt.toNat <
        2 ^ 32 :=
      Nat.lt_of_le_of_lt (Nat.mul_le_mul_left _ (by omega))
        locatedSrc.addressed.small
    rw [UInt32.toNat_mul, (unsigned_eq insideSrc.2.1).2,
      UInt8.toNat_toUInt32, Nat.mul_comm, Nat.mod_eq_of_lt few,
      Nat.mul_div_cancel_left _ locatedSrc.sized]
  have read := readElements_inside locatedSrc.addressed fitsSrc
  have wrote : writeElements _ _ (range (heap src) indexSrc length) = _ :=
    writeElements_inside locatedDst.addressed (by
      rw [length_range locatedSrc insideSrc]
      exact fitsDst)
  unfold memmoveElements
  dsimp only
  rw [count, (unsigned_eq insideSrc.1).1, (unsigned_eq insideDst.1).1, read,
    Option.bind_some, ← range, wrote]
  exact ⟨fun _ => rfl, fun _ => trivial⟩

/-- Past the range check, elements are moved if they can all be converted. -/
theorem copy_moves
    (some_ : length ≠ 0)
    (moves : ¬ (src = dst ∧ indexSrc = indexDst)) :
    MovesIf heap dst indexDst ((range (heap src) indexSrc length).map
        (transferred system (heap src) (heap dst)))
      (Transfers system (heap src) indexSrc (heap dst) indexDst length)
      (Copy system heap src indexSrc dst indexDst length) := by
  have inRange := not_outOfRange locatedSrc locatedDst insideSrc insideDst
  unfold Copy
  dsimp only
  rw [if_neg some_, if_neg inRange, if_neg moves]
  by_cases sameType : (heap src).reflectionData = (heap dst).reflectionData
  · have same : transferred system (heap src) (heap dst) = id := by
      funext element
      rw [transferred, if_pos (Or.inl sameType)]
      rfl
    rw [if_pos sameType, same, List.map_id, Transfers, if_pos sameType]
    cases isReference : (heap src).m_fReference with
    | false =>
        have moved := memmoveElements_moves locatedSrc locatedDst insideSrc
          insideDst
        exact ⟨fun _ => moved.1 trivial, fun _ isTrue => by cases isTrue⟩
    | true =>
        have moved := copySameType_moves locatedSrc locatedDst insideSrc
          insideDst
        exact ⟨fun assigned => moved.1 (assigned rfl),
          fun succeeds _ => moved.2 succeeds⟩
  · have apart : src ≠ dst := fun same => sameType (by rw [same])
    rw [if_neg sameType, Transfers, if_neg sameType]
    cases described : system.describeElements (heap dst).reflectionData with
    | error failure =>
        refine ⟨?_, fun succeeds => by cases succeeds⟩
        rintro ⟨descriptor, isOk, _⟩
        cases isOk
    | ok descriptor =>
        dsimp only
        by_cases references :
            ((heap src).m_fReference && (heap dst).m_fReference) = true
        · have same : transferred system (heap src) (heap dst) = id := by
            funext element
            rw [transferred, if_pos (Or.inr references)]
            rfl
          have moved : MovesIf heap dst indexDst
              ((range (heap src) indexSrc length).map id)
              ((transferAll (casting system) descriptor
                (range (heap dst) indexDst length)
                (range (heap src) indexSrc length)).isSome = true)
              (copyRounds (casting system) src dst 1 length.toUInt32.toNat
                descriptor indexSrc.toUInt32 indexDst.toUInt32 heap) :=
            copyRounds_moves locatedSrc locatedDst insideSrc insideDst
              (Or.inl apart) casting_stores
          rw [if_pos references, same]
          refine ⟨?_, fun succeeds => ⟨descriptor, rfl, ?_⟩⟩
          · rintro ⟨other, isOk, all⟩
            cases isOk
            rw [if_pos references] at all
            exact moved.1 all
          · rw [if_pos references]
            exact moved.2 succeeds
        · have same : transferred system (heap src) (heap dst) = fun element =>
              storedValue system (heap dst) (held (heap src) element) := by
            funext element
            rw [transferred, if_neg (not_or.mpr ⟨sameType, references⟩)]
          have moved : MovesIf heap dst indexDst
              ((range (heap src) indexSrc length).map fun element =>
                storedValue system (heap dst) (held (heap src) element))
              ((transferAll (converting system (heap src) (heap dst))
                (descriptor, 0) (range (heap dst) indexDst length)
                (range (heap src) indexSrc length)).isSome = true)
              (copyRounds (converting system (heap src) (heap dst)) src dst 1
                length.toUInt32.toNat (descriptor, 0) indexSrc.toUInt32
                indexDst.toUInt32 heap) :=
            copyRounds_moves locatedSrc locatedDst insideSrc insideDst
              (Or.inl apart) converting_stores
          rw [if_neg references, same]
          refine ⟨?_, fun succeeds => ⟨descriptor, rfl, ?_⟩⟩
          · rintro ⟨other, isOk, all⟩
            cases isOk
            rw [if_neg references] at all
            exact moved.1 all
          · rw [if_neg references]
            exact moved.2 succeeds

end Inside

/-- Past the range check, no range is rejected any more. -/
theorem copy_notRejected
    (some_ : length ≠ 0)
    (passes :
      ¬ outOfRange (heap src) indexSrc (heap dst) indexDst length) :
    (Copy system heap src indexSrc dst indexDst length).2 ≠
      .failed .CLR_E_OUT_OF_RANGE := by
  unfold Copy
  dsimp only
  rw [if_neg some_, if_neg passes]
  split
  case isTrue => simp
  case isFalse =>
    split
    case isTrue =>
      split
      case isTrue =>
        unfold memmoveElements
        dsimp only
        split <;> simp
      case isFalse =>
        unfold copySameType
        dsimp only
        split
        case isTrue => exact copyRounds_inRange (by simp) reassign_inRange
        case isFalse => exact copyRounds_inRange (by simp) reassign_inRange
    case isFalse =>
      split
      case h_1 failure _ => simpa using toHResult_inRange failure
      case h_2 =>
        split
        case isTrue =>
          exact copyRounds_inRange casting_inRange reassign_inRange
        case isFalse =>
          exact copyRounds_inRange converting_inRange
            fun _ _ => storeToReference_inRange

/-- Nothing to copy, or elements that are where they are copied to. -/
theorem copy_nothing
    (nothing : length = 0 ∨ (src = dst ∧ indexSrc = indexDst))
    (inRange :
      ¬ outOfRange (heap src) indexSrc (heap dst) indexDst length) :
    Copy system heap src indexSrc dst indexDst length =
      (Function.update heap dst { heap dst with
        elements := splice (heap dst).elements indexDst.toInt.toNat
          ((range (heap src) indexSrc length).map
            (transferred system (heap src) (heap dst))) }, .S_OK ()) := by
  have unchanged : splice (heap dst).elements indexDst.toInt.toNat
      ((range (heap src) indexSrc length).map
        (transferred system (heap src) (heap dst))) = (heap dst).elements := by
    rcases nothing with isZero | ⟨rfl, rfl⟩
    · rw [isZero, range]
      simp
    · have same : transferred system (heap src) (heap src) = id := by
        funext element
        rw [transferred, if_pos (Or.inl rfl)]
        rfl
      rw [same, List.map_id, range, splice_self]
  rw [unchanged]
  have heapSame : Function.update heap dst (heap dst) = heap :=
    Function.update_eq_self dst heap
  change _ = (Function.update heap dst (heap dst), _)
  rw [heapSame]
  unfold Copy
  dsimp only
  by_cases isZero : length = 0
  · rw [if_pos isZero]
  · rw [if_neg isZero, if_neg inRange,
      if_pos (nothing.resolve_left isZero)]

/-- Where elements are moved to, they are the ones that were moved. -/
theorem moved_unique
    {moved moved' : List Element}
    (sameLength : moved.length = moved'.length)
    (same : (Function.update heap dst { heap dst with
        elements := splice (heap dst).elements indexDst.toInt.toNat moved },
          CallResult.S_OK ()) =
      (Function.update heap dst { heap dst with
        elements := splice (heap dst).elements indexDst.toInt.toNat moved' },
          .S_OK ())) :
    moved = moved' := by
  have sameArray := congrFun (Prod.mk.inj same).1 dst
  rw [Function.update_self, Function.update_self] at sameArray
  exact splice_inj sameLength
    (congrArg CLR_RT_HeapBlock_Array.elements sameArray)

theorem converted_nothing
    (nothing : length = 0 ∨ (src = dst ∧ indexSrc = indexDst)) :
    (range (heap src) indexSrc length).map
        (converted system.types (heap src) (heap dst)) =
      ((range (heap src) indexSrc length).map
        (transferred system (heap src) (heap dst))).map some := by
  rcases nothing with isZero | ⟨rfl, -⟩
  · rw [isZero, range]
    simp
  · rw [List.map_map, List.map_inj_left]
    intro element _
    rw [converted, if_pos rfl, Function.comp_apply, transferred,
      if_pos (Or.inl rfl)]

/-- A copy has the effect of `memmove` exactly where every element of a range
inside both arrays converts, and the range check sees that another range is not
inside. -/
theorem copy_movesElements_iff
    (locatedSrc : Located system.types (heap src))
    (locatedDst : Located system.types (heap dst)) :
    MovesElements system heap src indexSrc dst indexDst length
        (Copy system heap src indexSrc dst indexDst length) ↔
      CopyCondition system heap src indexSrc dst indexDst length := by
  unfold MovesElements CopyCondition
  apply and_congr
  · apply imp_congr_right
    rintro ⟨insideSrc, insideDst⟩
    have inRange :=
      not_outOfRange locatedSrc locatedDst insideSrc insideDst
    rw [← or_assoc]
    by_cases nothing : length = 0 ∨ (src = dst ∧ indexSrc = indexDst)
    · have copied := @copy_nothing _ system heap src dst indexSrc indexDst
        length nothing inRange
      exact ⟨fun _ => Or.inl nothing,
        fun _ => ⟨_, converted_nothing nothing, copied⟩⟩
    · have some_ := (not_or.mp nothing).1
      have moves := copy_moves locatedSrc locatedDst insideSrc insideDst
        some_ (not_or.mp nothing).2
      rw [or_iff_right nothing,
        ← transfers_iff locatedSrc locatedDst insideSrc insideDst some_]
      constructor
      · rintro ⟨moved, isConverted, copied⟩
        have transfers := moves.2 (by rw [copied])
        have sameLength := congrArg List.length isConverted
        rw [List.length_map, List.length_map] at sameLength
        rw [moves.1 transfers] at copied
        have isMoved := moved_unique
          (by rw [List.length_map, sameLength]) copied
        exact ⟨transfers, by rw [isConverted, isMoved]⟩
      · rintro ⟨transfers, isConverted⟩
        exact ⟨_, isConverted, moves.1 transfers⟩
  · apply imp_congr_right
    intro notInside
    rw [← outOfRange_iff locatedSrc locatedDst]
    constructor
    · intro rejected
      have some_ : length ≠ 0 := by
        intro isZero
        rw [Copy, if_pos isZero] at rejected
        cases rejected
      refine ⟨some_, ?_⟩
      by_contra passes
      exact copy_notRejected some_ passes (by rw [rejected])
    · rintro ⟨some_, rejects⟩
      rw [Copy, if_neg some_, if_pos rejects]

end Arrays

/-! ## Two arrays -/

/-- Types of which all are the same, which everything is an instance of. -/
def oneType (dt : DataType) : ElementTypes Unit where
  types := ⟨fun _ => some dt, ⟨0⟩⟩
  describeElements _ := .ok ()
  isInstanceOf _ _ := .ok (true, ())
  newObject _ _ := none
  newObject_unboxed _ _ _ := by simp

/-- An array of four elements of the one type. -/
def fourElements (dt : DataType) (elements : List Element) :
    CLR_RT_HeapBlock_Array Element where
  extracted := 6
  reflectionData := arrayOfObjects
  m_numOfElements := 4
  m_typeOfElement := dt
  m_sizeOfElement := m_sizeInBytes dt
  m_fReference := !isNumeric dt
  elements := elements

/-- An array of three objects and NULL. -/
def threeObjects : ArrayHeap :=
  fun _ => fourElements .object [.object 1, .object 2, .object 3, .null]

theorem threeObjects_located (address : Nat) :
    Located (oneType .object).types (threeObjects address) where
  length := rfl
  type := rfl
  size := rfl
  reference := rfl
  bytes := show arrayBytes 4 12 ≤ 12 * 0xFFFF by decide

/-- Three objects are copied up by one element of their own array. -/
theorem copy_movesElements_overlapping :
    MovesElements (oneType .object) threeObjects 0 0 0 1 3
      (Copy (oneType .object) threeObjects 0 0 0 1 3) := by
  apply (copy_movesElements_iff (threeObjects_located 0)
    (threeObjects_located 0)).mpr
  refine ⟨fun _ => Or.inr (Or.inr ?_), fun notInside => absurd ?_ notInside⟩
  · rw [ElementsConvert, if_pos rfl]
    intro _
    unfold AllAssigned
    decide
  · unfold InsideArray
    decide

/-- Two arrays of numbers. -/
def numbers : ArrayHeap :=
  fun _ => fourElements .i4 [.direct .i4 1, .direct .i4 2, .direct .i4 3,
    .direct .i4 4]

/-- A copy of one number to the largest index passes the range check and writes
outside the array. -/
theorem copy_notMovesElements :
    (Copy (oneType .i4) numbers 0 0 1 2147483647 1).2 = .outside ∧
      ¬ MovesElements (oneType .i4) numbers 0 0 1 2147483647 1
        (Copy (oneType .i4) numbers 0 0 1 2147483647 1) := by
  have isOutside :
      (Copy (oneType .i4) numbers 0 0 1 2147483647 1).2 = .outside := by
    decide
  refine ⟨isOutside, fun moves => ?_⟩
  have rejected := moves.2 (by
    unfold InsideArray
    decide)
  rw [rejected] at isOutside
  cases isOutside

end Arrays

end NanoClr
