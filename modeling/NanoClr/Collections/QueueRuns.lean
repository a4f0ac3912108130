import NanoClr.Collections.QueueCopy

/-!
# Runs of a queue

A run is that of a first-in first-out list exactly if no object that is queued
is lost, and none that is copied.
-/

namespace NanoClr

namespace Collections

open Arrays HeapBlock TypeSystem

namespace CLR_RT_HeapBlock_Queue

variable {Descriptor : Type} (system : ElementTypes Descriptor)

/-- The array of a queue that is not full is kept, as is that of a full one if
no larger one is created.  A larger one holds NULLs instead of the objects. -/
def GrowthFits (available : UInt32 → Bool) (queue : CLR_RT_HeapBlock_Queue) :
    Prop :=
  let capacity := queue._array.m_numOfElements.toInt32
  queue._size ≠ capacity ∨
    RefusesObjects available (capacity * 2).toUInt32 ∨
      ∀ element ∈ queue.contents, element = HasNull.null

/-- The condition on a call. -/
def CallFits (queue : CLR_RT_HeapBlock_Queue) : QueueCall system → Prop
  | .enqueue available _ => queue.GrowthFits available
  | .copyTo toArray index => queue.CopyFits system toArray.val index
  | _ => True

section Stored

variable {system} {queue : CLR_RT_HeapBlock_Queue} {head : Nat}
  {contents : List Element} {toArray : CLR_RT_HeapBlock_Array Element}
  {index : Int32}

/-! ## Copying -/

theorem withContents_objects
    (located : Located system.types toArray)
    (object : toArray.m_typeOfElement = .object) :
    withContents system toArray index contents =
      { toArray with
        elements := splice toArray.elements index.toInt.toNat contents } := by
  have isReference : toArray.m_fReference = true := by
    rw [located.reference, object]
    rfl
  have same : storedValue system toArray = id := by
    funext value
    rw [storedValue, isReference]
    rfl
  rw [withContents, same, List.map_id]

/-- An array of objects that holds the contents in their place. -/
theorem withContents_eq_self
    (located : Located system.types toArray)
    (object : toArray.m_typeOfElement = .object)
    (stores : queue.StoresFrom head contents)
    (fits : Fits toArray index contents.length) :
    withContents system toArray index contents = toArray ↔
      range toArray index queue._size = contents := by
  have size := stores.size_toInt
  have nonneg := fits.1
  have below := fits.2
  have inside : index.toInt.toNat + contents.length ≤
      toArray.elements.length := by
    rw [located.length]
    omega
  rw [withContents_objects located object, range, size, Int.toNat_natCast]
  constructor
  · intro same
    have sameElements : splice toArray.elements index.toInt.toNat contents =
        toArray.elements :=
      congrArg CLR_RT_HeapBlock_Array.elements same
    have written := splice_range inside
    rw [sameElements] at written
    exact written
  · intro isSame
    have written := @splice_self _ toArray.elements index.toInt.toNat
      contents.length
    rw [isSame] at written
    rw [written]

theorem fits_of_not_tooShort
    (stores : queue.StoresFrom head contents)
    (enough : ¬ queue.TooShort toArray index)
    (nonneg : 0 ≤ index.toInt) :
    Fits toArray index contents.length := by
  have size := stores.size_toInt
  unfold TooShort at enough
  unfold Fits
  omega

theorem not_fits_of_tooShort
    (located : Located system.types toArray)
    (stores : queue.StoresFrom head contents)
    (tooShort : queue.TooShort toArray index) :
    ¬ Fits toArray index contents.length := by
  have size := stores.size_toInt
  have few := located.few
  unfold TooShort at tooShort
  unfold Fits
  omega

/-- A copy to an array of objects with a negative index is not rejected. -/
theorem copyParts_memcpy_negative
    (hr : HResult) :
    (queue.copyParts ObjArrayMemcpy toArray index).2 ≠ .failed hr := by
  have copies (arraySrc arrayDst : CLR_RT_HeapBlock_Array Element)
      (indexSrc indexDst length : Int32) :
      (ObjArrayMemcpy arraySrc indexSrc arrayDst indexDst length).2 ≠
        .failed hr := by
    unfold ObjArrayMemcpy
    cases copyElements arraySrc indexSrc.toUInt32 arrayDst indexDst.toUInt32
        length.toUInt32 with
    | none => exact nofun
    | some array => exact nofun
  unfold copyParts
  split
  case isTrue => apply copies
  case isFalse =>
    dsimp only
    split
    case h_1 => apply copies
    case h_2 => apply copies

/-- A copy to any other array with a negative index is rejected. -/
theorem copyParts_rejects
    (stores : queue.StoresFrom head contents)
    (some_ : contents ≠ [])
    (located : Located system.types queue._array)
    (locatedTo : Located system.types toArray)
    (negative : index.toInt < 0) :
    queue.copyParts (arrayCopy system) toArray index =
      ((queue._array, toArray), .failed .CLR_E_OUT_OF_RANGE) := by
  have small := stores.small
  have isPlace := stores.isPlace
  unfold copyParts
  split
  case isTrue =>
    exact arrayCopy_rejects located locatedTo negative fun isZero =>
      some_ (stores.size_eq_zero.mp isZero)
  case isFalse =>
    have notZero : Int32.ofNat (queue._array.elements.length - head) ≠ 0 := by
      rw [Ne, ← Int32.toInt_inj, ofNat_toInt (by omega), Int32.toInt_zero]
      omega
    rw [stores.firstPart_eq]
    dsimp only
    rw [arrayCopy_rejects located locatedTo negative notZero]

theorem copyTo_tooShort
    (locatedTo : Located system.types toArray)
    (stores : queue.StoresFrom head contents)
    (tooShort : queue.TooShort toArray index) :
    queue.CopyTo system toArray index =
      ((queue._array, toArray), .failed .CLR_E_INVALID_PARAMETER) := by
  rw [CopyTo, if_pos ((tooShort_iff locatedTo stores).mpr tooShort)]

theorem copyTo_nothing
    (locatedTo : Located system.types toArray)
    (stores : queue.StoresFrom head [])
    (enough : ¬ queue.TooShort toArray index) :
    queue.CopyTo system toArray index =
      ((queue._array, toArray), .S_OK ()) := by
  rw [CopyTo, if_neg fun short => enough ((tooShort_iff locatedTo stores).mp
    short), if_neg fun positive => stores.size_pos.mp positive rfl]

theorem copyTo_parts
    (locatedTo : Located system.types toArray)
    (stores : queue.StoresFrom head contents)
    (some_ : contents ≠ [])
    (enough : ¬ queue.TooShort toArray index) :
    queue.CopyTo system toArray index =
      if toArray.m_typeOfElement = .object then
        queue.copyParts ObjArrayMemcpy toArray index
      else
        queue.copyParts (arrayCopy system) toArray index := by
  rw [CopyTo, if_neg fun short => enough ((tooShort_iff locatedTo stores).mp
    short), if_pos (stores.size_pos.mpr some_)]

theorem copyTo_refines
    (isObject : elementType system.types m_Object = some .object)
    (stores : queue.Stores ⟨contents, places⟩)
    (toArray : { array // Located system.types array })
    (fits : queue.CopyFits system toArray.val index) :
    ∃ later,
      FifoStep system ⟨contents, places⟩ (.copyTo toArray index)
          (queue.perform system (.copyTo toArray index)).2 later ∧
        (queue.perform system (.copyTo toArray index)).1.Stores later := by
  obtain ⟨arePlaces, head, stores⟩ := stores
  have locatedTo := toArray.property
  have located := stores.located isObject
  refine ⟨⟨contents, places⟩, ?_⟩
  dsimp only [perform]
  by_cases tooShort : queue.TooShort toArray.val index
  · rw [copyTo_tooShort locatedTo stores tooShort]
    exact ⟨FifoStep.notFitting ⟨contents, places⟩ toArray index _
      (not_fits_of_tooShort locatedTo stores tooShort), arePlaces, head, stores⟩
  by_cases some_ : contents = []
  · subst some_
    rw [copyTo_nothing locatedTo stores tooShort]
    exact ⟨FifoStep.nothingToCopy toArray index places, arePlaces, head, stores⟩
  rw [CopyFits, stores.contents_eq] at fits
  have fits := (fits.resolve_left some_).resolve_left tooShort
  rw [copyTo_parts locatedTo stores some_ tooShort]
  by_cases object : toArray.val.m_typeOfElement = .object
  · rw [if_pos object] at fits ⊢
    have inside := fits_of_not_tooShort stores tooShort fits.1
    obtain ⟨array, isCopied, isKept⟩ :=
      copyParts_memcpy stores some_ located locatedTo inside
    have isSame := (withContents_eq_self locatedTo object stores inside).mpr
      fits.2
    have copied := FifoStep.copied ⟨contents, places⟩ toArray index inside
    dsimp only at copied
    rw [isSame] at copied
    rw [isCopied, isKept fits.2]
    exact ⟨copied, arePlaces, head, stores⟩
  · rw [if_neg object] at fits ⊢
    by_cases nonneg : 0 ≤ index.toInt
    · have inside := fits_of_not_tooShort stores tooShort nonneg
      rw [(copyParts_converts stores some_ located locatedTo inside).1
        (fits nonneg)]
      exact ⟨FifoStep.copied ⟨contents, places⟩ toArray index inside,
        arePlaces, head, stores⟩
    · rw [copyParts_rejects stores some_ located locatedTo (by omega)]
      exact ⟨FifoStep.notFitting ⟨contents, places⟩ toArray index _
        fun inside => nonneg inside.1, arePlaces, head, stores⟩

theorem copyFits_of_step
    (isObject : elementType system.types m_Object = some .object)
    (stores : queue.Stores ⟨contents, places⟩)
    (toArray : { array // Located system.types array })
    {later : Fifo}
    (steps : FifoStep system ⟨contents, places⟩ (.copyTo toArray index)
      (queue.perform system (.copyTo toArray index)).2 later) :
    queue.CopyFits system toArray.val index := by
  obtain ⟨-, head, stores⟩ := stores
  have locatedTo := toArray.property
  have located := stores.located isObject
  rw [CopyFits, stores.contents_eq]
  by_cases some_ : contents = []
  · exact Or.inl some_
  by_cases tooShort : queue.TooShort toArray.val index
  · exact Or.inr (Or.inl tooShort)
  dsimp only [perform] at steps
  rw [copyTo_parts locatedTo stores some_ tooShort] at steps
  right
  right
  by_cases object : toArray.val.m_typeOfElement = .object
  · rw [if_pos object] at steps ⊢
    generalize isCopied : queue.copyParts ObjArrayMemcpy toArray.val index =
      parts at steps
    obtain ⟨⟨array, copiedTo⟩, result⟩ := parts
    generalize isAnswer : (⟨result.map fun _ => .null, some copiedTo⟩ :
      QueueAnswer) = answer at steps
    cases steps with
    | nothingToCopy => exact absurd rfl some_
    | copied _ _ _ inside =>
        obtain ⟨array, isMemcpy, -⟩ :=
          copyParts_memcpy stores some_ located locatedTo inside
        rw [isMemcpy, Prod.mk.injEq, Prod.mk.injEq] at isCopied
        rw [QueueAnswer.mk.injEq, Option.some.injEq, ← isCopied.1.2] at isAnswer
        exact ⟨inside.1, (withContents_eq_self locatedTo object stores
          inside).mp isAnswer.2.symm⟩
    | notFitting _ _ _ hr notFits =>
        have failed : result.map (fun _ => Element.null) = .failed hr :=
          congrArg QueueAnswer.result isAnswer
        cases result with
        | S_OK done => cases failed
        | outside => cases failed
        | failed hr =>
            exact absurd (congrArg Prod.snd isCopied)
              (copyParts_memcpy_negative hr)
  · rw [if_neg object] at steps ⊢
    intro nonneg
    have inside := fits_of_not_tooShort stores tooShort nonneg
    apply (copyParts_converts stores some_ located locatedTo inside).2
    generalize queue.copyParts (arrayCopy system) toArray.val index = parts
      at steps
    generalize isAnswer : (⟨parts.2.map fun _ => .null, some parts.1.2⟩ :
      QueueAnswer) = answer at steps
    have isResult := congrArg QueueAnswer.result isAnswer
    obtain ⟨arrays, result⟩ := parts
    cases steps with
    | nothingToCopy => exact absurd rfl some_
    | notFitting _ _ _ hr notFits => exact absurd inside notFits
    | copied =>
        cases result with
        | S_OK done => rfl
        | failed hr => cases isResult
        | outside => cases isResult

/-! ## Growing -/

/-- The array that a full queue grows to, with NULLs instead of the objects. -/
theorem grown_stores
    {capacity : UInt32}
    {count : Nat}
    (allocated : Allocated (clearedArray Element capacity))
    (positive : 0 < capacity.toNat)
    (fits : count < capacity.toNat) :
    StoresFrom ⟨clearedArray Element capacity, 0, Int32.ofNat count,
      Int32.ofNat count⟩ 0 (List.replicate count HasNull.null) := by
  have length : (clearedArray Element capacity).elements.length =
      capacity.toNat := List.length_replicate
  constructor
  · exact allocated
  · rfl
  · rfl
  · dsimp only
    rw [length]
    exact positive
  · dsimp only
    rw [length, List.length_replicate]
    exact Nat.le_of_lt fits
  · rfl
  · dsimp only
    rw [length, List.length_replicate, windowEnd_eq positive, Nat.zero_add,
      Nat.mod_eq_of_lt fits]
  · rw [List.length_replicate]
  · have inside : 0 + count ≤ (clearedArray Element capacity).elements.length :=
      by omega
    rw [placesFrom, List.length_replicate]
    dsimp only
    rw [window_eq_range inside, map_range_getElem? inside]
    congr 1
    dsimp only [clearedArray]
    rw [List.drop_zero, List.take_replicate, Nat.min_eq_left (by omega)]

namespace StoresFrom

/-- The capacity that a full queue asks for. -/
theorem doubled (stores : queue.StoresFrom head contents) :
    queue._array.m_numOfElements.toInt32 * 2 =
        Int32.ofNat (queue._array.elements.length * 2) ∧
      (queue._array.m_numOfElements.toInt32 * 2).toUInt32 =
        UInt32.ofNat (queue._array.elements.length * 2) := by
  have isDouble : queue._array.m_numOfElements.toInt32 * 2 =
      Int32.ofNat (queue._array.elements.length * 2) := by
    rw [stores.allocated.signed, Int32.ofNat_mul]
    rfl
  rw [isDouble, Int32.toUInt32_ofNat']
  exact ⟨rfl, rfl⟩

theorem isFull_iff (stores : queue.StoresFrom head contents) :
    queue._size = queue._array.m_numOfElements.toInt32 ↔
      contents.length = queue._array.elements.length := by
  have small := stores.small
  have fits := stores.fits
  rw [stores.isSize, stores.allocated.signed, ← Int32.toInt_inj,
    Int32.toInt_ofNat_of_lt (by omega), Int32.toInt_ofNat_of_lt (by omega)]
  omega

theorem enqueue_grows
    {available : UInt32 → Bool}
    (isObject : elementType system.types m_Object = some .object)
    (stores : queue.StoresFrom head contents)
    (full : contents.length = queue._array.elements.length)
    (notRefused : ¬ RefusesObjects available
      (UInt32.ofNat (queue._array.elements.length * 2)))
    (value : Element) :
    ∃ array, StoresFrom ⟨array, 0, queue._size, queue._size⟩ 0
        (List.replicate contents.length HasNull.null) ∧
      array.elements.length = queue._array.elements.length * 2 ∧
      queue.Enqueue system available value =
        putElement ⟨array, 0, queue._size, queue._size⟩
          (Int32.ofNat array.elements.length) value := by
  have small := stores.small
  have isPlace := stores.isPlace
  have double := stores.doubled
  have number : (UInt32.ofNat (queue._array.elements.length * 2)).toNat =
      queue._array.elements.length * 2 :=
    UInt32.toNat_ofNat_of_lt' (show _ < 2 ^ 32 by omega)
  have sizeFits := sizeFits_of_le (le_of_eq_of_le number (by omega))
  have allocated := @clearedArray_allocated Element _ _ _ notRefused sizeFits
  have grown := grown_stores allocated (by omega)
    (show contents.length < _ by omega)
  rw [← stores.isSize] at grown
  have length : (clearedArray Element (UInt32.ofNat
      (queue._array.elements.length * 2))).elements.length =
        queue._array.elements.length * 2 := by
    rw [clearedArray, List.length_replicate, number]
  have size := stores.size_toInt
  have zero := Int32.toInt_zero
  have some_ : contents ≠ [] := List.length_pos_iff.mp (by omega)
  have located := stores.located isObject
  have locatedTo := grown.located isObject
  have object := grown.allocated.object
  have numbers := grown.allocated.length
  dsimp only at locatedTo object numbers
  rw [length] at numbers
  have inside : Fits (clearedArray Element (UInt32.ofNat
      (queue._array.elements.length * 2))) 0 contents.length := by
    unfold Fits
    omega
  have enough : ¬ queue.TooShort (clearedArray Element (UInt32.ofNat
      (queue._array.elements.length * 2))) 0 := by
    unfold TooShort
    omega
  obtain ⟨array, isCopied, -⟩ :=
    copyParts_memcpy stores some_ located locatedTo inside
  refine ⟨_, grown, length, ?_⟩
  rw [Enqueue, if_pos (stores.isFull_iff.mpr full)]
  dsimp only
  rw [double.2, newObjectArray_created notRefused sizeFits]
  dsimp only
  rw [copyTo_parts locatedTo stores some_ enough, if_pos object, isCopied,
    double.1, length]

end StoresFrom

theorem enqueue_refused
    {available : UInt32 → Bool}
    (stores : queue.StoresFrom head contents)
    (full : contents.length = queue._array.elements.length)
    (refuses : RefusesObjects available
      (UInt32.ofNat (queue._array.elements.length * 2)))
    (value : Element) :
    ∃ hr, queue.Enqueue system available value = (queue, .failed hr) := by
  obtain ⟨hr, isRefused⟩ := @newObjectArray_refused Element _ _ _ refuses
  refine ⟨hr, ?_⟩
  rw [Enqueue, if_pos (stores.isFull_iff.mpr full)]
  dsimp only
  rw [stores.doubled.2, isRefused]

theorem enqueue_kept
    {available : UInt32 → Bool}
    (stores : queue.StoresFrom head contents)
    (notFull : contents.length ≠ queue._array.elements.length)
    (value : Element) :
    queue.Enqueue system available value =
      queue.putElement (Int32.ofNat queue._array.elements.length) value := by
  rw [Enqueue, if_neg fun full => notFull (stores.isFull_iff.mp full),
    stores.allocated.signed]

/-- The condition, in terms of the contents. -/
theorem growthFits_iff
    {available : UInt32 → Bool}
    (stores : queue.StoresFrom head contents) :
    queue.GrowthFits available ↔
      contents.length ≠ queue._array.elements.length ∨
        RefusesObjects available
            (UInt32.ofNat (queue._array.elements.length * 2)) ∨
          contents = List.replicate contents.length HasNull.null := by
  rw [GrowthFits, Ne, stores.isFull_iff, stores.doubled.2, stores.contents_eq,
    List.eq_replicate_length]

theorem stores_unique
    {other : List Element}
    {otherPlaces : Nat}
    (stores : queue.Stores ⟨contents, places⟩)
    (storesOther : queue.Stores ⟨other, otherPlaces⟩) :
    contents = other := by
  obtain ⟨-, _, stores⟩ := stores
  obtain ⟨-, _, storesOther⟩ := storesOther
  dsimp only at stores storesOther
  rw [← stores.contents_eq, storesOther.contents_eq]

theorem enqueue_refines
    {available : UInt32 → Bool}
    (isObject : elementType system.types m_Object = some .object)
    (stores : queue.Stores ⟨contents, places⟩)
    (value : Element)
    (fits : queue.GrowthFits available) :
    ∃ later,
      FifoStep system ⟨contents, places⟩ (.enqueue available value)
          (queue.perform system (.enqueue available value)).2 later ∧
        (queue.perform system (.enqueue available value)).1.Stores later := by
  obtain ⟨arePlaces, head, stores⟩ := stores
  dsimp only at arePlaces stores
  rw [growthFits_iff stores] at fits
  dsimp only [perform]
  have enqueued := @FifoStep.enqueued Descriptor system ⟨contents, places⟩
    available value
  rw [Fifo.placesAfterEnqueue] at enqueued
  dsimp only at enqueued
  by_cases full : contents.length = queue._array.elements.length
  · rw [if_pos (full.trans arePlaces)] at enqueued
    by_cases refuses : RefusesObjects available
        (UInt32.ofNat (queue._array.elements.length * 2))
    · obtain ⟨hr, isRefused⟩ := @enqueue_refused Descriptor system _ _ _ _ stores
        full refuses value
      rw [isRefused]
      rw [arePlaces] at full refuses
      exact ⟨_, FifoStep.enqueueRefused ⟨contents, places⟩ available value hr
        full refuses, arePlaces, head, stores⟩
    · obtain ⟨array, grown, isTwice, isGrown⟩ :=
        stores.enqueue_grows isObject full refuses value
      have nulls := (fits.resolve_left (not_not.mpr full)).resolve_left refuses
      rw [← nulls] at grown
      have isPlace := stores.isPlace
      have notFull : contents.length < array.elements.length := by omega
      obtain ⟨isDone, storesLater, sameLength⟩ :=
        grown.putElement_refines notFull value
      rw [isGrown, isDone]
      refine ⟨_, enqueued, ?_, 0, storesLater⟩
      rw [sameLength, isTwice, arePlaces]
  · rw [← arePlaces, if_neg full, arePlaces] at enqueued
    have notFull := Nat.lt_of_le_of_ne stores.fits full
    obtain ⟨isDone, storesLater, sameLength⟩ :=
      stores.putElement_refines notFull value
    rw [enqueue_kept stores full, isDone]
    exact ⟨_, enqueued, sameLength.trans arePlaces, head, storesLater⟩

theorem growthFits_of_step
    {available : UInt32 → Bool}
    (isObject : elementType system.types m_Object = some .object)
    (stores : queue.Stores ⟨contents, places⟩)
    (value : Element)
    {later : Fifo}
    (steps : FifoStep system ⟨contents, places⟩ (.enqueue available value)
      (queue.perform system (.enqueue available value)).2 later)
    (storesLater :
      (queue.perform system (.enqueue available value)).1.Stores later) :
    queue.GrowthFits available := by
  obtain ⟨-, head, stores⟩ := stores
  dsimp only at stores
  rw [growthFits_iff stores]
  by_cases full : contents.length = queue._array.elements.length
  · by_cases refuses : RefusesObjects available
        (UInt32.ofNat (queue._array.elements.length * 2))
    · exact Or.inr (Or.inl refuses)
    · obtain ⟨array, grown, isTwice, isGrown⟩ :=
        stores.enqueue_grows isObject full refuses value
      have isPlace := stores.isPlace
      have put := grown.putElement_refines (by
        rw [List.length_replicate]
        dsimp only
        omega) value
      dsimp only [perform] at steps storesLater
      rw [isGrown] at steps storesLater
      rw [put.1] at steps
      cases steps with
      | enqueued =>
          have same := stores_unique storesLater ⟨rfl, 0, put.2.1⟩
          exact Or.inr (Or.inr (List.append_cancel_right same))
  · exact Or.inl full

end Stored

/-! ## Runs -/

section Runs

variable {system}

/-- A new list has four places. -/
def newFifo : Fifo := ⟨[], 4⟩

theorem newQueue_stores : newQueue.Stores newFifo := by
  have number : c_DefaultCapacity.toNat = 4 := rfl
  have few : ¬ RefusesObjects (fun _ => true) c_DefaultCapacity := by
    unfold RefusesObjects
    decide
  have allocated := @clearedArray_allocated Element _ _ _ few
    (sizeFits_of_le (by omega))
  exact ⟨rfl, 0, grown_stores allocated (by omega) (show 0 < _ by omega)⟩

/-- Every run of calls is one of a first-in first-out list if and only if each
call meets its condition. -/
theorem queue_refines_iff
    (isObject : elementType system.types m_Object = some .object)
    (calls : List (QueueCall system)) :
    RunRefines (perform system) (FifoStep system) Stores newQueue newFifo calls ↔
      EveryCall (perform system) (CallFits system) newQueue calls := by
  apply runRefines_iff
  · rintro queue ⟨contents, places⟩ call stores fits
    cases call with
    | enqueue available value =>
        exact enqueue_refines isObject stores value fits
    | dequeue => exact dequeue_refines stores
    | peek => exact peek_refines stores
    | copyTo toArray index => exact copyTo_refines isObject stores toArray fits
    | clear => exact clear_refines stores
  · rintro queue ⟨contents, places⟩ call later stores steps storesLater
    cases call with
    | enqueue available value =>
        exact growthFits_of_step isObject stores value steps storesLater
    | dequeue => trivial
    | peek => trivial
    | copyTo toArray index =>
        exact copyFits_of_step isObject stores toArray steps
    | clear => trivial
  · exact newQueue_stores

end Runs

/-- What is queued where every creation of an array succeeds. -/
def enqueueValue (value : Element) : QueueCall (oneType .object) :=
  .enqueue (fun _ => true) value

/-- The array of three objects and NULL. -/
def objects : { array // Located (oneType .object).types array } :=
  ⟨threeObjects 0, threeObjects_located 0⟩

/-- Objects go round the end of the array and are copied to an array that holds
them; later five NULLs make the array grow. -/
theorem queue_refines_roundAndGrown :
    RunRefines (perform (oneType .object)) (FifoStep (oneType .object)) Stores
      newQueue newFifo
      [enqueueValue (.object 8), enqueueValue (.object 9),
        enqueueValue (.object 1), .dequeue, .dequeue,
        enqueueValue (.object 2), enqueueValue (.object 3), .peek,
        .copyTo objects 0, .clear, enqueueValue .null, enqueueValue .null,
        enqueueValue .null, enqueueValue .null, enqueueValue .null,
        .dequeue] := by
  apply (queue_refines_iff (by decide) _).mpr
  refine ⟨Or.inl (by decide), Or.inl (by decide), Or.inl (by decide), trivial,
    trivial, Or.inl (by decide), Or.inl (by decide), trivial,
    Or.inr (Or.inr ⟨by decide, rfl⟩), trivial, Or.inl (by decide),
    Or.inl (by decide), Or.inl (by decide), Or.inl (by decide),
    Or.inr (Or.inr fun _ isNull => List.eq_of_mem_replicate (n := 4) isNull),
    trivial, trivial⟩

/-- The first object that is queued is not taken out again if there are four
others behind it. -/
theorem queue_loses_objects :
    ¬ RunRefines (perform (oneType .object)) (FifoStep (oneType .object)) Stores
      newQueue newFifo [enqueueValue (.object 1), enqueueValue (.object 2),
        enqueueValue (.object 3), enqueueValue (.object 4),
        enqueueValue (.object 5)] := by
  rintro ⟨_, _, _, _, _, _, _, _, _, _, _, stores, _, steps, storesLater, _⟩
  rcases growthFits_of_step (by decide) stores (.object 5) steps storesLater
    with notFull | refuses | nulls
  · exact notFull (by decide)
  · revert refuses
    unfold RefusesObjects
    decide
  · have objects : Element.object 1 ∈ [Element.object 1, .object 2, .object 3,
        .object 4] := List.mem_cons_self
    cases nulls (.object 1) objects

end CLR_RT_HeapBlock_Queue

end Collections

end NanoClr
