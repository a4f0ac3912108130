import NanoClr.Collections.Queue

/-!
# Copying queues

What `CopyTo` does to the array that it copies to, and to the queue.
-/

namespace NanoClr

namespace Collections

open Arrays HeapBlock

namespace CLR_RT_HeapBlock_Queue

variable {Descriptor : Type} (system : ElementTypes Descriptor)

/-! ## Conditions -/

/-- The objects of a queue, as its array, head and size tell. -/
def contents (queue : CLR_RT_HeapBlock_Queue) : List Element :=
  (queue.placesFrom queue._head.toInt.toNat queue._size.toInt.toNat).filterMap
    (queue._array.elements[·]?)

/-- What `CopyTo` finds too short: an array with too few elements behind an
index, or one so far behind it that the difference wraps around. -/
def TooShort (queue : CLR_RT_HeapBlock_Queue)
    (toArray : CLR_RT_HeapBlock_Array Element) (index : Int32) : Prop :=
  (toArray.m_numOfElements.toNat : Int) - index.toInt < queue._size.toInt ∨
    2 ^ 31 ≤ (toArray.m_numOfElements.toNat : Int) - index.toInt

/-- Every object of the queue can be converted to the element it is copied
to. -/
def PartsConvert (queue : CLR_RT_HeapBlock_Queue)
    (toArray : CLR_RT_HeapBlock_Array Element) (index : Int32) : Prop :=
  if queue._head < queue._tail then
    Transfers system queue._array queue._head toArray index queue._size
  else
    let firstPart :=
      (queue._array.m_numOfElements - queue._head.toUInt32).toInt32
    Transfers system queue._array queue._head toArray index firstPart ∧
      (queue._tail = 0 ∨
        Transfers system queue._array 0 toArray (index + firstPart)
          queue._tail)

/-- Where a copy keeps the queue and copies its objects: there are none, or the
array is found to be too short.  Otherwise an array of objects already holds
them; objects for other arrays can be converted. -/
def CopyFits (queue : CLR_RT_HeapBlock_Queue)
    (toArray : CLR_RT_HeapBlock_Array Element) (index : Int32) : Prop :=
  queue.contents = [] ∨ queue.TooShort toArray index ∨
    if toArray.m_typeOfElement = .object then
      0 ≤ index.toInt ∧ range toArray index queue._size = queue.contents
    else
      0 ≤ index.toInt → queue.PartsConvert system toArray index

section Stored

variable {system} {queue : CLR_RT_HeapBlock_Queue} {head : Nat}
  {contents : List Element} {toArray : CLR_RT_HeapBlock_Array Element}
  {index : Int32}

namespace StoresFrom

theorem contents_eq (stores : queue.StoresFrom head contents) :
    queue.contents = contents := by
  have small := stores.small
  have isPlace := stores.isPlace
  have fits := stores.fits
  have elements := stores.elements
  rw [CLR_RT_HeapBlock_Queue.contents, stores.isHead, stores.isSize,
    Int32.toInt_ofNat_of_lt (by omega), Int32.toInt_ofNat_of_lt (by omega),
    Int.toNat_natCast, Int.toNat_natCast]
  have mapped := congrArg (List.filterMap id) elements
  rw [List.filterMap_map, List.filterMap_map] at mapped
  simpa [Function.comp_def] using mapped

theorem size_toInt (stores : queue.StoresFrom head contents) :
    queue._size.toInt = contents.length := by
  have small := stores.small
  have fits := stores.fits
  rw [stores.isSize, Int32.toInt_ofNat_of_lt (by omega)]

end StoresFrom

theorem number_toInt
    (located : Located system.types toArray) :
    toArray.m_numOfElements.toInt32.toInt = toArray.m_numOfElements.toNat := by
  have few := located.few
  rw [← UInt32.ofNat_toNat (x := toArray.m_numOfElements),
    UInt32.toInt32_ofNat', Int32.toInt_ofNat_of_lt (by simpa using few)]
  simp

/-- The check of `CopyTo`. -/
theorem tooShort_iff
    (located : Located system.types toArray)
    (stores : queue.StoresFrom head contents) :
    toArray.m_numOfElements.toInt32 - index < queue._size ↔
      queue.TooShort toArray index := by
  have few := located.few
  have lower := Int32.le_toInt index
  have upper := Int32.toInt_lt index
  have small := stores.small
  have fits := stores.fits
  rw [Int32.lt_iff_toInt_lt, Int32.toInt_sub, number_toInt located, TooShort,
    stores.size_toInt]
  by_cases wraps : 2 ^ 31 ≤ (toArray.m_numOfElements.toNat : Int) - index.toInt
  · have wrapped : ((toArray.m_numOfElements.toNat : Int) -
        index.toInt).bmod (2 ^ 32) =
          (toArray.m_numOfElements.toNat : Int) - index.toInt - 2 ^ 32 := by
      rw [← Int.sub_bmod_right, Int.bmod_eq_of_le (by omega) (by omega)]
      rfl
    rw [wrapped]
    omega
  · rw [Int.bmod_eq_of_le (by omega) (by omega)]
    omega

theorem StoresFrom.located
    (stores : queue.StoresFrom head contents)
    (isObject : elementType system.types m_Object = some .object) :
    Located system.types queue._array where
  length := stores.allocated.length
  type := by rw [stores.type, isObject, stores.allocated.object]
  size := by
    rw [stores.allocated.size, stores.allocated.object]
    rfl
  reference := by
    rw [stores.reference, stores.allocated.object]
    rfl
  bytes := stores.allocated.bytes

end Stored

/-! ## One copy between two arrays -/

section Between

variable {system} {arraySrc arrayDst : CLR_RT_HeapBlock_Array Element}
  {indexSrc indexDst length : Int32}

/-- Elements that are references are stored as they are, or as numbers. -/
theorem transferred_references
    (reference : arraySrc.m_fReference = true)
    (sameType : arraySrc.reflectionData = arrayDst.reflectionData →
      arrayDst.m_fReference = true) :
    transferred system arraySrc arrayDst = storedValue system arrayDst := by
  funext element
  have isLoaded : held arraySrc element = element := by
    rw [held, reference]
    rfl
  rw [transferred, isLoaded]
  split
  case isFalse => rfl
  case isTrue both =>
    have references : arrayDst.m_fReference = true := by
      rcases both with same | both
      · exact sameType same
      · rw [Bool.and_eq_true] at both
        exact both.2
    rw [storedValue, references]
    rfl

theorem sameType_reference
    (locatedSrc : Located system.types arraySrc)
    (locatedDst : Located system.types arrayDst)
    (reference : arraySrc.m_fReference = true)
    (same : arraySrc.reflectionData = arrayDst.reflectionData) :
    arrayDst.m_fReference = true := by
  have type := locatedSrc.type
  rw [same, locatedDst.type] at type
  rw [locatedDst.reference, Option.some.inj type, ← locatedSrc.reference,
    reference]

/-- A copy of references that are all converted, and of no others. -/
theorem arrayCopy_moves
    (locatedSrc : Located system.types arraySrc)
    (locatedDst : Located system.types arrayDst)
    (reference : arraySrc.m_fReference = true)
    (insideSrc : InsideArray arraySrc indexSrc length)
    (insideDst : InsideArray arrayDst indexDst length)
    (some_ : length ≠ 0) :
    (Transfers system arraySrc indexSrc arrayDst indexDst length →
      arrayCopy system arraySrc indexSrc arrayDst indexDst length =
        ((arraySrc, withContents system arrayDst indexDst
          (range arraySrc indexSrc length)), .S_OK ())) ∧
    ((arrayCopy system arraySrc indexSrc arrayDst indexDst length).2 =
        .S_OK () →
      Transfers system arraySrc indexSrc arrayDst indexDst length) := by
  have moves := @copy_moves _ _ (twoArrays arraySrc arrayDst) 0 1 _ _ _
    locatedSrc locatedDst insideSrc insideDst some_
    fun same => absurd same.1 (by decide)
  have isStored : transferred system (twoArrays arraySrc arrayDst 0)
      (twoArrays arraySrc arrayDst 1) = storedValue system arrayDst :=
    transferred_references reference
      (sameType_reference locatedSrc locatedDst reference)
  rw [isStored] at moves
  refine ⟨fun converts => ?_, moves.2⟩
  unfold arrayCopy
  rw [moves.1 converts]
  rfl

/-- A range that starts in front of the array is rejected. -/
theorem arrayCopy_rejects
    (locatedSrc : Located system.types arraySrc)
    (locatedDst : Located system.types arrayDst)
    (negative : indexDst.toInt < 0)
    (some_ : length ≠ 0) :
    arrayCopy system arraySrc indexSrc arrayDst indexDst length =
      ((arraySrc, arrayDst), .failed .CLR_E_OUT_OF_RANGE) := by
  have rejects : outOfRange (twoArrays arraySrc arrayDst 0) indexSrc
      (twoArrays arraySrc arrayDst 1) indexDst length :=
    (outOfRange_iff locatedSrc locatedDst).mpr
      (Or.inr (Or.inr (Or.inl negative)))
  unfold arrayCopy Copy
  dsimp only
  rw [if_neg some_, if_pos rejects]
  rfl

theorem arrayCopy_nothing :
    arrayCopy system arraySrc indexSrc arrayDst indexDst 0 =
      ((arraySrc, arrayDst), .S_OK ()) := by
  unfold arrayCopy Copy
  rw [if_pos rfl]
  rfl

/-- Writing to another range leaves the conditions of a copy as they are. -/
theorem transfers_withElements
    {elements : List Element}
    (same : range { arrayDst with elements := elements } indexDst length =
      range arrayDst indexDst length) :
    Transfers system arraySrc indexSrc
        { arrayDst with elements := elements } indexDst length ↔
      Transfers system arraySrc indexSrc arrayDst indexDst length := by
  unfold Transfers
  rw [same]
  rfl

/-- The elements of the destination are copied to the source. -/
theorem objArrayMemcpy_inside
    (locatedSrc : Located system.types arraySrc)
    (locatedDst : Located system.types arrayDst)
    (insideSrc : InsideArray arraySrc indexSrc length)
    (insideDst : InsideArray arrayDst indexDst length) :
    ObjArrayMemcpy arraySrc indexSrc arrayDst indexDst length =
      (({ arraySrc with
          elements := splice arraySrc.elements indexSrc.toInt.toNat
            (range arrayDst indexDst length) }, arrayDst), .S_OK ()) := by
  have read := readElements_inside locatedDst.addressed
    (insideDst.fits locatedDst)
  have lengthRange := length_range locatedDst insideDst
  have wrote : writeElements _ _ (range arrayDst indexDst length) = _ :=
    writeElements_inside locatedSrc.addressed (by
      rw [lengthRange]
      exact insideSrc.fits locatedSrc)
  unfold ObjArrayMemcpy copyElements
  rw [(unsigned_eq insideDst.2.1).2, (unsigned_eq insideDst.1).1,
    (unsigned_eq insideSrc.1).1, read, Option.bind_some, ← range, wrote]

end Between

/-! ## The parts of a queue -/

section Parts

variable {system} {queue : CLR_RT_HeapBlock_Queue} {head : Nat}
  {contents : List Element} {toArray : CLR_RT_HeapBlock_Array Element}
  {index : Int32}

theorem ofNat_toInt
    {value : Nat}
    (small : value < 0xFFFF) :
    (Int32.ofNat value).toInt = value :=
  Int32.toInt_ofNat_of_lt (by omega)

/-- The range of the array of a queue between two places. -/
theorem StoresFrom.inside
    {start count : Nat}
    (stores : queue.StoresFrom head contents)
    (fits : start + count ≤ queue._array.elements.length) :
    InsideArray queue._array (Int32.ofNat start) (Int32.ofNat count) ∧
      range queue._array (Int32.ofNat start) (Int32.ofNat count) =
        (queue._array.elements.drop start).take count := by
  have small := stores.small
  have length := stores.allocated.length
  rw [InsideArray, range, ofNat_toInt (by omega), ofNat_toInt (by omega)]
  refine ⟨⟨by omega, by omega, by omega⟩, rfl⟩

/-- A part of the range that is copied to. -/
theorem Fits.inside
    {first count total : Nat}
    (fits : Fits toArray index total)
    (part : first + count ≤ total)
    (small : total < 0xFFFF)
    (few : toArray.m_numOfElements.toNat < 2 ^ 31) :
    InsideArray toArray (index + Int32.ofNat first) (Int32.ofNat count) ∧
      (index + Int32.ofNat first).toInt = index.toInt + first := by
  obtain ⟨nonneg, below⟩ := fits
  have sum : (index + Int32.ofNat first).toInt = index.toInt + first := by
    rw [Int32.toInt_add, ofNat_toInt (by omega),
      Int.bmod_eq_of_le (by omega) (by omega)]
  rw [InsideArray, sum, ofNat_toInt (by omega)]
  exact ⟨⟨by omega, by omega, by omega⟩, rfl⟩

theorem Fits.inside_whole
    {total : Nat}
    (fits : Fits toArray index total)
    (small : total < 0xFFFF) :
    InsideArray toArray index (Int32.ofNat total) := by
  obtain ⟨nonneg, below⟩ := fits
  rw [InsideArray, ofNat_toInt small]
  exact ⟨nonneg, by omega, below⟩

theorem StoresFrom.firstPart_eq
    (stores : queue.StoresFrom head contents) :
    (queue._array.m_numOfElements - queue._head.toUInt32).toInt32 =
      Int32.ofNat (queue._array.elements.length - head) := by
  have isPlace := stores.isPlace
  rw [stores.isHead, Int32.toUInt32_ofNat', stores.allocated.numOfElements,
    ← UInt32.ofNat_sub (Nat.le_of_lt isPlace), UInt32.toInt32_ofNat']

theorem StoresFrom.tail_wraps
    (stores : queue.StoresFrom head contents)
    (wraps : ¬ head + contents.length < queue._array.elements.length) :
    queue._tail = Int32.ofNat
      (head + contents.length - queue._array.elements.length) := by
  rw [stores.isTail_eq, if_neg wraps]

/-- The whole queue in two ranges of its array. -/
theorem StoresFrom.ranges
    (stores : queue.StoresFrom head contents)
    (wraps : ¬ head + contents.length < queue._array.elements.length) :
    contents =
      range queue._array queue._head
          (Int32.ofNat (queue._array.elements.length - head)) ++
        range queue._array 0 queue._tail := by
  have isPlace := stores.isPlace
  have fits := stores.fits
  have first := stores.inside
    (show head + (queue._array.elements.length - head) ≤ _ by omega)
  have second := stores.inside
    (show 0 + (head + contents.length - queue._array.elements.length) ≤ _ by
      omega)
  have isZero : (0 : Int32) = Int32.ofNat 0 := rfl
  rw [stores.isHead, stores.tail_wraps wraps, isZero, first.2, second.2]
  exact stores.twoParts (Nat.le_of_not_lt wraps)

section Written

variable {first second : List Element}

theorem withContents_located
    (locatedTo : Located system.types toArray)
    (inside : index.toInt.toNat + first.length ≤ toArray.elements.length) :
    Located system.types (withContents system toArray index first) :=
  locatedTo.withElements (length_splice (by
    rw [List.length_map]
    exact inside))

/-- Writing two parts behind each other. -/
theorem withContents_append
    {next : Int32}
    (inside : index.toInt.toNat + first.length ≤ toArray.elements.length)
    (isNext : next.toInt.toNat = index.toInt.toNat + first.length) :
    withContents system (withContents system toArray index first) next second =
      withContents system toArray index (first ++ second) := by
  have places : index.toInt.toNat + first.length = index.toInt.toNat +
      (first.map (storedValue system toArray)).length := by
    rw [List.length_map]
  have isStored : storedValue system (withContents system toArray index first) =
      storedValue system toArray := rfl
  have written := @splice_splice _ toArray.elements index.toInt.toNat
    (first.map (storedValue system toArray))
    (second.map (storedValue system toArray)) (by
      rw [List.length_map]
      exact inside)
  rw [← List.map_append, ← places, ← isNext] at written
  rw [withContents, isStored, withContents, withContents]
  dsimp only
  rw [written]

/-- What is written leaves the range behind it as it is. -/
theorem range_withContents
    {next length : Int32}
    (inside : index.toInt.toNat + first.length ≤ toArray.elements.length)
    (isNext : next.toInt.toNat = index.toInt.toNat + first.length) :
    range (withContents system toArray index first) next length =
      range toArray next length := by
  rw [range, withContents, range]
  dsimp only
  rw [drop_splice]
  · rw [List.length_map]
    exact inside
  · exact Nat.le_of_eq (by rw [List.length_map, isNext])

end Written

/-- Where two copies succeed, the first one does. -/
theorem first_succeeds
    {first : ArrayCopied}
    {next : CLR_RT_HeapBlock_Array Element →
      CLR_RT_HeapBlock_Array Element → ArrayCopied}
    (succeeds : (match first with
      | ((array, toArray), .S_OK _) => next array toArray
      | failure => failure).2 = .S_OK ()) :
    first.2 = .S_OK () := by
  obtain ⟨arrays, result⟩ := first
  cases result with
  | S_OK done => rfl
  | failed hr => cases succeeds
  | outside => cases succeeds

/-- Copying the parts to an array that is not one of objects. -/
theorem copyParts_converts
    (stores : queue.StoresFrom head contents)
    (some_ : contents ≠ [])
    (located : Located system.types queue._array)
    (locatedTo : Located system.types toArray)
    (fits : Fits toArray index contents.length) :
    (queue.PartsConvert system toArray index →
      queue.copyParts (arrayCopy system) toArray index =
        ((queue._array, withContents system toArray index contents),
          .S_OK ())) ∧
    ((queue.copyParts (arrayCopy system) toArray index).2 = .S_OK () →
      queue.PartsConvert system toArray index) := by
  have small := stores.small
  have isPlace := stores.isPlace
  have capacity := stores.fits
  have positive := List.length_pos_iff.mpr some_
  have isBefore := stores.isBefore_iff some_
  unfold copyParts PartsConvert
  by_cases less : head + contents.length < queue._array.elements.length
  · obtain ⟨inside, isRange⟩ := stores.inside (Nat.le_of_lt less)
    rw [if_pos (isBefore.mpr less), if_pos (isBefore.mpr less)]
    rw [← stores.isHead, ← stores.isSize] at inside isRange
    have insideTo := fits.inside_whole (by omega)
    rw [← stores.isSize] at insideTo
    have notZero : queue._size ≠ 0 :=
      fun isZero => some_ (stores.size_eq_zero.mp isZero)
    have moves := arrayCopy_moves located locatedTo stores.reference inside
      insideTo notZero
    rw [isRange, ← stores.onePart (Nat.le_of_lt less)] at moves
    exact moves
  · have isRange := stores.ranges less
    have tail := stores.tail_wraps less
    have part : 0 < queue._array.elements.length - head := by omega
    have few := locatedTo.few
    obtain ⟨insideFirst, -⟩ := stores.inside
      (show head + (queue._array.elements.length - head) ≤ _ by omega)
    obtain ⟨insideSecond, -⟩ := stores.inside
      (show 0 + (head + contents.length - queue._array.elements.length) ≤ _ by
        omega)
    obtain ⟨insideToFirst, isStart⟩ := fits.inside
      (show 0 + (queue._array.elements.length - head) ≤ contents.length by
        omega) (by omega) few
    obtain ⟨insideToSecond, isNext⟩ := fits.inside
      (show queue._array.elements.length - head +
          (head + contents.length - queue._array.elements.length) ≤
        contents.length by omega) (by omega) few
    have isZero : index + Int32.ofNat 0 = index := Int32.add_zero index
    rw [isZero] at insideToFirst
    have lengthFirst := length_range located insideFirst
    rw [← stores.isHead] at insideFirst lengthFirst
    have notZero : Int32.ofNat (queue._array.elements.length - head) ≠ 0 := by
      rw [Ne, ← Int32.toInt_inj, ofNat_toInt (by omega), Int32.toInt_zero]
      omega
    have movesFirst := arrayCopy_moves located locatedTo stores.reference
      insideFirst insideToFirst notZero
    have fitsFirst := insideToFirst.fits locatedTo
    rw [← lengthFirst] at fitsFirst
    have isBehind : (index +
        Int32.ofNat (queue._array.elements.length - head)).toInt.toNat =
          index.toInt.toNat + (range queue._array queue._head
            (Int32.ofNat (queue._array.elements.length - head))).length := by
      have nonneg := fits.1
      rw [isNext, lengthFirst, ofNat_toInt (by omega)]
      omega
    rw [if_neg fun before => less (isBefore.mp before),
      if_neg fun before => less (isBefore.mp before), stores.firstPart_eq]
    dsimp only
    by_cases noTail : queue._tail = 0
    · have empty : range queue._array 0 queue._tail = [] := by
        rw [noTail]
        exact List.take_zero
      rw [empty, List.append_nil] at isRange
      rw [← isRange] at movesFirst
      refine ⟨fun converts => ?_, fun succeeds => ⟨?_, Or.inl noTail⟩⟩
      · rw [movesFirst.1 converts.1, noTail]
        exact arrayCopy_nothing
      · exact movesFirst.2 (first_succeeds succeeds)
    · rw [tail] at noTail
      have first : Int32.ofNat 0 = 0 := rfl
      rw [first] at insideSecond
      have movesSecond := arrayCopy_moves located
        (withContents_located locatedTo fitsFirst) stores.reference
        insideSecond insideToSecond noTail
      rw [← tail, withContents_append fitsFirst isBehind, ← isRange,
        withContents, transfers_withElements
          (range_withContents fitsFirst isBehind)] at movesSecond
      refine ⟨?_, fun succeeds => ?_⟩
      · rintro ⟨convertsFirst, noTail' | convertsSecond⟩
        · exact absurd (tail ▸ noTail') noTail
        · rw [movesFirst.1 convertsFirst]
          exact movesSecond.1 convertsSecond
      · have convertsFirst := movesFirst.2 (first_succeeds succeeds)
        rw [movesFirst.1 convertsFirst] at succeeds
        exact ⟨convertsFirst, Or.inr (movesSecond.2 succeeds)⟩

/-- The range that the whole queue is copied to, in two parts. -/
theorem range_parts
    {first second total : Nat}
    (located : Located system.types toArray)
    (fits : Fits toArray index total)
    (small : total < 0xFFFF)
    (whole : first + second = total) :
    range toArray index (Int32.ofNat total) =
      range toArray index (Int32.ofNat first) ++
        range toArray (index + Int32.ofNat first) (Int32.ofNat second) := by
  obtain ⟨_, isNext⟩ := fits.inside (show first + second ≤ total by omega)
    small located.few
  have nonneg := fits.1
  have next : (index + Int32.ofNat first).toInt.toNat =
      index.toInt.toNat + first := by
    rw [isNext]
    omega
  rw [range, range, range, next, ofNat_toInt small, ofNat_toInt (by omega),
    ofNat_toInt (by omega), Int.toNat_natCast, Int.toNat_natCast,
    Int.toNat_natCast, ← whole, List.take_add, List.drop_drop]

/-- Copying the parts to an array of objects changes the queue, unless the
array already holds the objects. -/
theorem copyParts_memcpy
    (stores : queue.StoresFrom head contents)
    (some_ : contents ≠ [])
    (located : Located system.types queue._array)
    (locatedTo : Located system.types toArray)
    (fits : Fits toArray index contents.length) :
    ∃ array,
      queue.copyParts ObjArrayMemcpy toArray index =
          ((array, toArray), .S_OK ()) ∧
        (range toArray index queue._size = contents →
          array = queue._array) := by
  have small := stores.small
  have isPlace := stores.isPlace
  have capacity := stores.fits
  have isBefore := stores.isBefore_iff some_
  unfold copyParts
  by_cases less : head + contents.length < queue._array.elements.length
  · obtain ⟨inside, isRange⟩ := stores.inside (Nat.le_of_lt less)
    rw [if_pos (isBefore.mpr less)]
    rw [← stores.isHead, ← stores.isSize] at inside isRange
    have insideTo := fits.inside_whole (by omega)
    rw [← stores.isSize] at insideTo
    rw [objArrayMemcpy_inside located locatedTo inside insideTo]
    refine ⟨_, rfl, fun isSame => ?_⟩
    rw [isSame, stores.onePart (Nat.le_of_lt less), ← isRange, range,
      splice_self]
  · have isRange := stores.ranges less
    have tail := stores.tail_wraps less
    have few := locatedTo.few
    obtain ⟨insideFirst, -⟩ := stores.inside
      (show head + (queue._array.elements.length - head) ≤ _ by omega)
    obtain ⟨insideSecond, -⟩ := stores.inside
      (show 0 + (head + contents.length - queue._array.elements.length) ≤ _ by
        omega)
    obtain ⟨insideToFirst, -⟩ := fits.inside
      (show 0 + (queue._array.elements.length - head) ≤ contents.length by
        omega) (by omega) few
    obtain ⟨insideToSecond, -⟩ := fits.inside
      (show queue._array.elements.length - head +
          (head + contents.length - queue._array.elements.length) ≤
        contents.length by omega) (by omega) few
    have isZero : index + Int32.ofNat 0 = index := Int32.add_zero index
    have first : Int32.ofNat 0 = 0 := rfl
    rw [isZero] at insideToFirst
    rw [first] at insideSecond
    rw [← stores.isHead] at insideFirst
    rw [← tail] at insideSecond insideToSecond
    rw [if_neg fun before => less (isBefore.mp before), stores.firstPart_eq]
    dsimp only
    have lengthFirst := length_range locatedTo insideToFirst
    have fitsFirst := insideFirst.fits located
    rw [← lengthFirst] at fitsFirst
    rw [objArrayMemcpy_inside located locatedTo insideFirst insideToFirst]
    dsimp only
    rw [objArrayMemcpy_inside
      (located.withElements (length_splice fitsFirst)) locatedTo insideSecond
      insideToSecond]
    refine ⟨_, rfl, fun isSame => ?_⟩
    have parts := range_parts locatedTo fits
      (show contents.length < 0xFFFF by omega)
      (show queue._array.elements.length - head +
          (head + contents.length - queue._array.elements.length) =
        contents.length by omega)
    rw [← stores.isSize, isSame, ← tail] at parts
    have lengths : (range toArray index
        (Int32.ofNat (queue._array.elements.length - head))).length =
          (range queue._array queue._head
            (Int32.ofNat (queue._array.elements.length - head))).length :=
      lengthFirst.trans (length_range located insideFirst).symm
    obtain ⟨sameFirst, sameSecond⟩ := List.append_inj
      (parts.symm.trans isRange) lengths
    rw [sameFirst, sameSecond, range, splice_self, range, splice_self]

end Parts

end CLR_RT_HeapBlock_Queue

end Collections

end NanoClr
