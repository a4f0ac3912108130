import Mathlib.Data.Option.Basic
import NanoClr.Arrays.CopySemantics
import NanoClr.Collections.ObjectArray
import NanoClr.Library.CallRuns
import NanoClr.Library.CircularWindow

/-!
# Queues

`CLR_RT_HeapBlock_Queue` keeps its objects in a circular array, from a head on.
-/

namespace NanoClr

namespace Collections

open Arrays HeapBlock

/-- The queue; its fields are those of the managed class. -/
structure CLR_RT_HeapBlock_Queue where
  _array : CLR_RT_HeapBlock_Array Element
  _head : Int32
  _tail : Int32
  _size : Int32

namespace CLR_RT_HeapBlock_Queue

variable {Descriptor : Type} (system : ElementTypes Descriptor)

/-! ## The calls -/

/-- `Dequeue`: the first object leaves, and NULL takes its place. -/
def Dequeue (queue : CLR_RT_HeapBlock_Queue) :
    CLR_RT_HeapBlock_Queue × CallResult Element :=
  let array := queue._array
  let head := queue._head
  if queue._size = 0 then
    (queue, .failed .CLR_E_INVALID_OPERATION)
  else
    match readElement array head.toUInt32,
        writeElements array head.toUInt32 [HasNull.null] with
    | some value, some array =>
        ({ queue with
            _array := array
            _head := ((head + 1).toUInt32 % array.m_numOfElements).toInt32
            _size := queue._size - 1 }, .S_OK value)
    | _, _ => (queue, .outside)

/-- `Peek`: the first object, which stays. -/
def Peek (queue : CLR_RT_HeapBlock_Queue) :
    CLR_RT_HeapBlock_Queue × CallResult Element :=
  if queue._size = 0 then
    (queue, .failed .CLR_E_INVALID_OPERATION)
  else
    match readElement queue._array queue._head.toUInt32 with
    | none => (queue, .outside)
    | some value => (queue, .S_OK value)

/-- The elements that `Clear` fills with NULL. -/
def clearedElements (queue : CLR_RT_HeapBlock_Queue) :
    Option (CLR_RT_HeapBlock_Array Element) :=
  let array := queue._array
  let head := queue._head.toUInt32
  if queue._head < queue._tail then
    ClearElements array head queue._size.toUInt32
  else
    (ClearElements array head (array.m_numOfElements - head)).bind fun array =>
      ClearElements array 0 queue._tail.toUInt32

/-- `Clear`: the objects become NULL, and there are none. -/
def Clear (queue : CLR_RT_HeapBlock_Queue) :
    CLR_RT_HeapBlock_Queue × CallResult Unit :=
  if 0 < queue._size then
    match queue.clearedElements with
    | none => (queue, .outside)
    | some array => (⟨array, 0, 0, 0⟩, .S_OK ())
  else
    ({ queue with _head := 0, _tail := 0 }, .S_OK ())

/-- What a copy between two arrays does to both of them. -/
abbrev ArrayCopied :=
  (CLR_RT_HeapBlock_Array Element × CLR_RT_HeapBlock_Array Element) ×
    CallResult Unit

/-- The elements of the destination are copied to the source. -/
def ObjArrayMemcpy (arraySrc : CLR_RT_HeapBlock_Array Element)
    (indexSrc : Int32) (arrayDst : CLR_RT_HeapBlock_Array Element)
    (indexDst length : Int32) : ArrayCopied :=
  match copyElements arraySrc indexSrc.toUInt32 arrayDst indexDst.toUInt32
      length.toUInt32 with
  | none => ((arraySrc, arrayDst), .outside)
  | some arraySrc => ((arraySrc, arrayDst), .S_OK ())

/-- Two arrays at different addresses. -/
def twoArrays (arraySrc arrayDst : CLR_RT_HeapBlock_Array Element) :
    ArrayHeap :=
  fun address => if address = 0 then arraySrc else arrayDst

/-- `CLR_RT_HeapBlock_Array::Copy`, between two arrays. -/
def arrayCopy (arraySrc : CLR_RT_HeapBlock_Array Element) (indexSrc : Int32)
    (arrayDst : CLR_RT_HeapBlock_Array Element) (indexDst length : Int32) :
    ArrayCopied :=
  let copied := Copy system (twoArrays arraySrc arrayDst) 0 indexSrc 1 indexDst
    length
  ((copied.1 0, copied.1 1), copied.2)

/-- The copy of the elements in the order of the queue, in one part or two. -/
def copyParts
    (copy : CLR_RT_HeapBlock_Array Element → Int32 →
      CLR_RT_HeapBlock_Array Element → Int32 → Int32 → ArrayCopied)
    (queue : CLR_RT_HeapBlock_Queue)
    (toArray : CLR_RT_HeapBlock_Array Element)
    (index : Int32) : ArrayCopied :=
  if queue._head < queue._tail then
    copy queue._array queue._head toArray index queue._size
  else
    let firstPart :=
      (queue._array.m_numOfElements - queue._head.toUInt32).toInt32
    match copy queue._array queue._head toArray index firstPart with
    | ((array, toArray), .S_OK _) =>
        copy array 0 toArray (index + firstPart) queue._tail
    | failure => failure

/-- `CopyTo`: the objects are copied to an array from an index on. -/
def CopyTo (queue : CLR_RT_HeapBlock_Queue)
    (toArray : CLR_RT_HeapBlock_Array Element) (index : Int32) : ArrayCopied :=
  if toArray.m_numOfElements.toInt32 - index < queue._size then
    ((queue._array, toArray), .failed .CLR_E_INVALID_PARAMETER)
  else if 0 < queue._size then
    if toArray.m_typeOfElement = .object then
      copyParts ObjArrayMemcpy queue toArray index
    else
      copyParts (arrayCopy system) queue toArray index
  else
    ((queue._array, toArray), .S_OK ())

/-- The end of `Enqueue`, on an array with a free element. -/
def putElement (queue : CLR_RT_HeapBlock_Queue) (capacity : Int32)
    (value : Element) : CLR_RT_HeapBlock_Queue × CallResult Unit :=
  match writeElements queue._array queue._tail.toUInt32 [value] with
  | none => (queue, .outside)
  | some array =>
      ({ queue with
          _array := array
          _tail := (queue._tail + 1) % capacity
          _size := queue._size + 1 }, .S_OK ())

/-- The result of `CopyTo` is not looked at. -/
def Enqueue (available : UInt32 → Bool) (queue : CLR_RT_HeapBlock_Queue)
    (value : Element) : CLR_RT_HeapBlock_Queue × CallResult Unit :=
  let size := queue._size
  let capacity := queue._array.m_numOfElements.toInt32
  if size = capacity then
    let capacity := capacity * 2
    match newObjectArray available capacity.toUInt32 with
    | .failed hr => (queue, .failed hr)
    | .outside => (queue, .outside)
    | .S_OK newArray =>
        match CopyTo system queue newArray 0 with
        | (_, .outside) => (queue, .outside)
        | ((_, newArray), _) =>
            putElement ⟨newArray, 0, size, size⟩ capacity value
  else
    putElement queue capacity value

/-- The places of a new queue. -/
def c_DefaultCapacity : UInt32 := 4

/-- A queue as it is constructed. -/
def newQueue : CLR_RT_HeapBlock_Queue where
  _array := clearedArray Element c_DefaultCapacity
  _head := 0
  _tail := 0
  _size := 0

/-- The calls; the heap at an `Enqueue` has free runs of some lengths, and what
is copied to is an array in the heap. -/
inductive QueueCall (system : ElementTypes Descriptor) where
  | enqueue (available : UInt32 → Bool) (value : Element)
  | dequeue
  | peek
  | copyTo (toArray : { array // Located system.types array }) (index : Int32)
  | clear

/-- What a call gives back, which is NULL if it is nothing, and the array that
was copied to. -/
structure QueueAnswer where
  result : CallResult Element
  toArray : Option (CLR_RT_HeapBlock_Array Element)

/-- The queue after a call, and what the call answers. -/
def perform (queue : CLR_RT_HeapBlock_Queue) :
    QueueCall system → CLR_RT_HeapBlock_Queue × QueueAnswer
  | .enqueue available value =>
      let (queue, result) := queue.Enqueue system available value
      (queue, ⟨result.map fun _ => .null, none⟩)
  | .dequeue =>
      let (queue, result) := queue.Dequeue
      (queue, ⟨result, none⟩)
  | .peek =>
      let (queue, result) := queue.Peek
      (queue, ⟨result, none⟩)
  | .copyTo toArray index =>
      let copied := queue.CopyTo system toArray.val index
      ({ queue with _array := copied.1.1 },
        ⟨copied.2.map fun _ => .null, some copied.1.2⟩)
  | .clear =>
      let (queue, result) := queue.Clear
      (queue, ⟨result.map fun _ => .null, none⟩)

/-! ## The queue as a list -/

/-- The places of the objects of a queue, from the head on. -/
def placesFrom (queue : CLR_RT_HeapBlock_Queue) (head count : Nat) :
    List Nat :=
  window queue._array.elements.length head count

/-- The objects of a queue whose head is at a place. -/
structure StoresFrom (queue : CLR_RT_HeapBlock_Queue) (head : Nat)
    (contents : List Element) : Prop where
  allocated : Allocated queue._array
  type : queue._array.reflectionData = m_Object
  reference : queue._array.m_fReference = true
  isPlace : head < queue._array.elements.length
  fits : contents.length ≤ queue._array.elements.length
  isHead : queue._head = Int32.ofNat head
  isTail : queue._tail = Int32.ofNat
    (windowEnd queue._array.elements.length head contents.length)
  isSize : queue._size = Int32.ofNat contents.length
  elements : (queue.placesFrom head contents.length).map
    (queue._array.elements[·]?) = contents.map some

/-- A first-in first-out list: its objects and the number of places for
them. -/
structure Fifo where
  contents : List Element
  places : Nat

/-- The queue holds the objects of a list, in this order, in its places. -/
def Stores (queue : CLR_RT_HeapBlock_Queue) (fifo : Fifo) : Prop :=
  queue._array.elements.length = fifo.places ∧
    ∃ head, queue.StoresFrom head fifo.contents

/-- The places after an object is enqueued: twice as many if there was none
left. -/
def Fifo.placesAfterEnqueue (fifo : Fifo) : Nat :=
  if fifo.contents.length = fifo.places then fifo.places * 2 else fifo.places

/-- So many elements have room in an array from an index on. -/
def Fits (toArray : CLR_RT_HeapBlock_Array Element) (index : Int32)
    (count : Nat) : Prop :=
  0 ≤ index.toInt ∧ index.toInt + count ≤ toArray.m_numOfElements.toNat

/-- An array with the contents of a queue from an index on. -/
def withContents (toArray : CLR_RT_HeapBlock_Array Element) (index : Int32)
    (contents : List Element) : CLR_RT_HeapBlock_Array Element :=
  { toArray with
    elements := splice toArray.elements index.toInt.toNat
      (contents.map (storedValue system toArray)) }

/-- The calls on a first-in first-out list.  An object may only be refused
where no place is left and the array cannot be replaced by one twice as
large. -/
inductive FifoStep : Fifo → QueueCall system → QueueAnswer → Fifo → Prop
  | enqueued (fifo : Fifo) (available : UInt32 → Bool) (value : Element) :
      FifoStep fifo (.enqueue available value) ⟨.S_OK .null, none⟩
        ⟨fifo.contents ++ [value], fifo.placesAfterEnqueue⟩
  | enqueueRefused (fifo : Fifo) (available : UInt32 → Bool)
      (value : Element) (hr : HResult)
      (full : fifo.contents.length = fifo.places)
      (refuses : RefusesObjects available (UInt32.ofNat (fifo.places * 2))) :
      FifoStep fifo (.enqueue available value) ⟨.failed hr, none⟩ fifo
  | dequeued (value : Element) (rest : List Element) (places : Nat) :
      FifoStep ⟨value :: rest, places⟩ .dequeue ⟨.S_OK value, none⟩
        ⟨rest, places⟩
  | dequeueEmpty (places : Nat) :
      FifoStep ⟨[], places⟩ .dequeue ⟨.failed .CLR_E_INVALID_OPERATION, none⟩
        ⟨[], places⟩
  | peeked (value : Element) (rest : List Element) (places : Nat) :
      FifoStep ⟨value :: rest, places⟩ .peek ⟨.S_OK value, none⟩
        ⟨value :: rest, places⟩
  | peekEmpty (places : Nat) :
      FifoStep ⟨[], places⟩ .peek ⟨.failed .CLR_E_INVALID_OPERATION, none⟩
        ⟨[], places⟩
  | copied (fifo : Fifo)
      (toArray : { array // Located system.types array }) (index : Int32)
      (fits : Fits toArray.val index fifo.contents.length) :
      FifoStep fifo (.copyTo toArray index)
        ⟨.S_OK .null,
          some (withContents system toArray.val index fifo.contents)⟩ fifo
  | notFitting (fifo : Fifo)
      (toArray : { array // Located system.types array }) (index : Int32)
      (hr : HResult) (notFits : ¬ Fits toArray.val index fifo.contents.length) :
      FifoStep fifo (.copyTo toArray index) ⟨.failed hr, some toArray.val⟩ fifo
  | nothingToCopy (toArray : { array // Located system.types array })
      (index : Int32) (places : Nat) :
      FifoStep ⟨[], places⟩ (.copyTo toArray index)
        ⟨.S_OK .null, some toArray.val⟩ ⟨[], places⟩
  | cleared (fifo : Fifo) :
      FifoStep fifo .clear ⟨.S_OK .null, none⟩ ⟨[], fifo.places⟩

/-! ## The array of a queue -/

section Stored

variable {system} {queue : CLR_RT_HeapBlock_Queue} {head : Nat}
  {contents : List Element} {places : Nat}

namespace StoresFrom

theorem small (stores : queue.StoresFrom head contents) :
    queue._array.elements.length < 0xFFFF :=
  stores.allocated.small

theorem size_eq_zero (stores : queue.StoresFrom head contents) :
    queue._size = 0 ↔ contents = [] := by
  have small := stores.small
  have fits := stores.fits
  rw [stores.isSize, ← List.length_eq_zero_iff, ← Int32.toInt_inj,
    Int32.toInt_ofNat_of_lt (by omega), Int32.toInt_zero]
  omega

theorem size_pos (stores : queue.StoresFrom head contents) :
    0 < queue._size ↔ contents ≠ [] := by
  have small := stores.small
  have fits := stores.fits
  rw [stores.isSize, Ne, ← List.length_eq_zero_iff, Int32.lt_iff_toInt_lt,
    Int32.toInt_ofNat_of_lt (by omega), Int32.toInt_zero]
  omega

theorem readHead
    {value : Element}
    {rest : List Element}
    (stores : queue.StoresFrom head (value :: rest)) :
    readElement queue._array queue._head.toUInt32 = some value := by
  have first := stores.elements
  rw [placesFrom, List.length_cons, window, List.map_cons, List.map_cons,
    List.cons.injEq] at first
  rw [stores.isHead, Int32.toUInt32_ofNat',
    readElement_inside stores.allocated.addressed stores.isPlace]
  exact first.1

/-- Writing one element. -/
theorem writes
    {place : Nat}
    (stores : queue.StoresFrom head contents)
    (isPlace : place < queue._array.elements.length)
    (value : Element) :
    writeElements queue._array (UInt32.ofNat place) [value] =
      some { queue._array with
        elements := queue._array.elements.set place value } := by
  obtain ⟨before, covered, after, are, length⟩ := exists_split isPlace
  have wrote := @writeElement_append Element queue._array before after covered
    value stores.allocated.addressed are
  rw [length] at wrote
  rw [wrote, are, ← length]
  simp

theorem nextHead (stores : queue.StoresFrom head contents) :
    ((Int32.ofNat head + 1).toUInt32 % queue._array.m_numOfElements).toInt32 =
      Int32.ofNat (advance queue._array.elements.length head) := by
  have small := stores.small
  have isPlace := stores.isPlace
  have next : Int32.ofNat head + 1 = Int32.ofNat (head + 1) :=
    (Int32.ofNat_add head 1).symm
  have isAdvance : (head + 1) % queue._array.elements.length =
      advance queue._array.elements.length head :=
    (@windowEnd_eq _ _ 1 isPlace).symm
  rw [next, Int32.toUInt32_ofNat', ← isAdvance, ← UInt32.toInt32_ofNat']
  congr 1
  rw [← UInt32.toNat_inj, UInt32.toNat_mod, ← stores.allocated.length,
    UInt32.toNat_ofNat_of_lt' (show _ < 2 ^ 32 by omega),
    UInt32.toNat_ofNat_of_lt' (show _ < 2 ^ 32 from
      Nat.lt_of_lt_of_le (Nat.mod_lt _ (by omega)) (by omega))]

/-- The queue without its first object, whose place is NULL. -/
theorem withoutHead
    {value cleared : Element}
    {rest : List Element}
    (stores : queue.StoresFrom head (value :: rest)) :
    StoresFrom
      { queue with
        _array := { queue._array with
          elements := queue._array.elements.set head cleared }
        _head := Int32.ofNat (advance queue._array.elements.length head)
        _size := queue._size - 1 }
      (advance queue._array.elements.length head) rest := by
  have fits := stores.fits
  rw [List.length_cons] at fits
  have nodup := window_nodup stores.isPlace stores.fits
  rw [List.length_cons, window, List.nodup_cons] at nodup
  have elements := stores.elements
  rw [placesFrom, List.length_cons, window, List.map_cons, List.map_cons,
    List.cons.injEq] at elements
  have sameLength : (queue._array.elements.set head cleared).length =
      queue._array.elements.length := List.length_set
  constructor
  · exact stores.allocated.withElements sameLength
  · exact stores.type
  · exact stores.reference
  · dsimp only
    rw [sameLength]
    exact advance_lt stores.isPlace
  · dsimp only
    rw [sameLength]
    omega
  · rfl
  · dsimp only
    rw [sameLength]
    exact stores.isTail
  · dsimp only
    rw [stores.isSize, List.length_cons, Int32.ofNat_add]
    exact Int32.add_sub_cancel _ _
  · rw [placesFrom]
    dsimp only
    rw [sameLength, ← elements.2]
    apply List.map_congr_left
    intro place member
    rw [List.getElem?_set_ne]
    rintro rfl
    exact nodup.1 member

end StoresFrom

theorem dequeue_refines (stores : queue.Stores ⟨contents, places⟩) :
    ∃ later,
      FifoStep system ⟨contents, places⟩ .dequeue
          (queue.perform system .dequeue).2 later ∧
        (queue.perform system .dequeue).1.Stores later := by
  obtain ⟨arePlaces, head, stores⟩ := stores
  dsimp only [perform, Dequeue]
  cases contents with
  | nil =>
      rw [if_pos (stores.size_eq_zero.mpr rfl)]
      exact ⟨_, FifoStep.dequeueEmpty places, arePlaces, head, stores⟩
  | cons value rest =>
      have wrote := stores.writes stores.isPlace HasNull.null
      rw [if_neg fun isZero =>
        List.cons_ne_nil _ _ (stores.size_eq_zero.mp isZero), stores.readHead,
        stores.isHead, Int32.toUInt32_ofNat', wrote]
      dsimp only
      rw [stores.nextHead]
      exact ⟨_, FifoStep.dequeued value rest places,
        List.length_set.trans arePlaces, _, stores.withoutHead⟩

theorem peek_refines (stores : queue.Stores ⟨contents, places⟩) :
    ∃ later,
      FifoStep system ⟨contents, places⟩ .peek
          (queue.perform system .peek).2 later ∧
        (queue.perform system .peek).1.Stores later := by
  obtain ⟨arePlaces, head, stores⟩ := stores
  dsimp only [perform, Peek]
  cases contents with
  | nil =>
      rw [if_pos (stores.size_eq_zero.mpr rfl)]
      exact ⟨_, FifoStep.peekEmpty places, arePlaces, head, stores⟩
  | cons value rest =>
      rw [if_neg fun isZero =>
        List.cons_ne_nil _ _ (stores.size_eq_zero.mp isZero), stores.readHead]
      exact ⟨_, FifoStep.peeked value rest places, arePlaces, head, stores⟩

/-! ## Segments -/

namespace StoresFrom

/-- The objects lie in one part. -/
theorem onePart
    (stores : queue.StoresFrom head contents)
    (fits : head + contents.length ≤ queue._array.elements.length) :
    contents =
      (queue._array.elements.drop head).take contents.length := by
  have elements := stores.elements
  rw [placesFrom, window_eq_range fits, map_range_getElem? fits] at elements
  exact (List.map_injective_iff.mpr (Option.some_injective _) elements).symm

/-- The objects lie in two parts, at the end and at the start of the array. -/
theorem twoParts
    (stores : queue.StoresFrom head contents)
    (wraps : queue._array.elements.length ≤ head + contents.length) :
    contents =
      (queue._array.elements.drop head).take
          (queue._array.elements.length - head) ++
        (queue._array.elements.drop 0).take
          (head + contents.length - queue._array.elements.length) := by
  have fits := stores.fits
  have isPlace := stores.isPlace
  have elements := stores.elements
  rw [placesFrom, window_wraps isPlace wraps fits, List.map_append,
    map_range_getElem? (by omega), map_range_getElem? (by omega),
    ← List.map_append] at elements
  exact (List.map_injective_iff.mpr (Option.some_injective _) elements).symm

/-- The parts that the head and the tail tell. -/
theorem isTail_eq
    (stores : queue.StoresFrom head contents) :
    queue._tail = Int32.ofNat
      (if head + contents.length < queue._array.elements.length then
        head + contents.length
      else
        head + contents.length - queue._array.elements.length) := by
  have fits := stores.fits
  have isPlace := stores.isPlace
  rw [stores.isTail, windowEnd_eq isPlace]
  split
  case isTrue less => rw [Nat.mod_eq_of_lt less]
  case isFalse wraps =>
    rw [Nat.mod_eq_sub_mod (by omega), Nat.mod_eq_of_lt (by omega)]

/-- The head is in front of the tail where a queue that is not empty lies in
one part and does not reach the end of the array. -/
theorem isBefore_iff
    (stores : queue.StoresFrom head contents)
    (some_ : contents ≠ []) :
    queue._head < queue._tail ↔
      head + contents.length < queue._array.elements.length := by
  have small := stores.small
  have fits := stores.fits
  have isPlace := stores.isPlace
  have positive := List.length_pos_iff.mpr some_
  rw [stores.isHead, stores.isTail_eq]
  split
  case isTrue less =>
    rw [Int32.ofNat_lt_iff_lt (by omega) (by omega)]
    omega
  case isFalse wraps =>
    rw [Int32.ofNat_lt_iff_lt (by omega) (by omega)]
    omega

end StoresFrom

/-! ## Clearing -/

/-- An array of objects of the same length. -/
structure Resembles (array other : CLR_RT_HeapBlock_Array Element) : Prop where
  allocated : Allocated other
  type : other.reflectionData = array.reflectionData
  reference : other.m_fReference = array.m_fReference
  length : other.elements.length = array.elements.length

theorem clearElements_resembles
    {array : CLR_RT_HeapBlock_Array Element}
    {index length : Nat}
    (allocated : Allocated array)
    (inside : index + length ≤ array.elements.length) :
    ∃ cleared, ClearElements array (UInt32.ofNat index) (UInt32.ofNat length) =
      some cleared ∧ Resembles array cleared := by
  have small : array.elements.length < 0xFFFF := allocated.small
  have run : (List.replicate (UInt32.ofNat length).toNat
      (HasNull.null : Element)).length = length := by
    rw [List.length_replicate,
      UInt32.toNat_ofNat_of_lt' (show _ < 2 ^ 32 by omega)]
  rw [← run] at inside
  have sameLength := length_splice inside
  refine ⟨_, writeElements_inside allocated.addressed inside, ?_⟩
  exact ⟨allocated.withElements sameLength, rfl, rfl, sameLength⟩

theorem clearedElements_resembles
    (stores : queue.StoresFrom head contents)
    (some_ : contents ≠ []) :
    ∃ cleared, queue.clearedElements = some cleared ∧
      Resembles queue._array cleared := by
  have fits := stores.fits
  have isPlace := stores.isPlace
  have isBefore := stores.isBefore_iff some_
  have isTail := stores.isTail_eq
  unfold clearedElements
  dsimp only
  rw [stores.isHead, Int32.toUInt32_ofNat', stores.isSize,
    Int32.toUInt32_ofNat', ← stores.isHead]
  by_cases less : head + contents.length < queue._array.elements.length
  · rw [if_pos (isBefore.mpr less)]
    exact clearElements_resembles stores.allocated (Nat.le_of_lt less)
  · have rest : queue._array.m_numOfElements - UInt32.ofNat head =
        UInt32.ofNat (queue._array.elements.length - head) := by
      rw [UInt32.ofNat_sub (Nat.le_of_lt isPlace),
        stores.allocated.numOfElements]
    have firstFits : head + (queue._array.elements.length - head) ≤
        queue._array.elements.length := by omega
    obtain ⟨first, isFirst, resembles⟩ :=
      clearElements_resembles stores.allocated firstFits
    have secondFits :
        0 + (head + contents.length - queue._array.elements.length) ≤
          first.elements.length := by
      rw [resembles.length]
      omega
    obtain ⟨second, isSecond, resembles'⟩ :=
      clearElements_resembles resembles.allocated secondFits
    rw [if_neg fun before => less (isBefore.mp before), rest, isFirst,
      Option.bind_some, isTail, if_neg less, Int32.toUInt32_ofNat']
    exact ⟨second, isSecond, resembles'.allocated,
      resembles'.type.trans resembles.type,
      resembles'.reference.trans resembles.reference,
      resembles'.length.trans resembles.length⟩

/-- An empty queue that starts at the first place. -/
theorem stores_nil
    {cleared : CLR_RT_HeapBlock_Array Element}
    (stores : queue.StoresFrom head contents)
    (arePlaces : queue._array.elements.length = places)
    (resembles : Resembles queue._array cleared) :
    Stores ⟨cleared, 0, 0, 0⟩ ⟨[], places⟩ := by
  have isPlace := stores.isPlace
  refine ⟨resembles.length.trans arePlaces, 0, resembles.allocated, resembles.type.trans stores.type,
    resembles.reference.trans stores.reference, ?_, Nat.zero_le _, rfl, rfl,
    rfl, rfl⟩
  dsimp only
  rw [resembles.length]
  omega

theorem clear_refines (stores : queue.Stores ⟨contents, places⟩) :
    ∃ later,
      FifoStep system ⟨contents, places⟩ .clear
          (queue.perform system .clear).2 later ∧
        (queue.perform system .clear).1.Stores later := by
  obtain ⟨arePlaces, head, stores⟩ := stores
  have isPositive := stores.size_pos
  dsimp only [perform, Clear]
  by_cases some_ : contents = []
  · rw [if_neg fun positive => isPositive.mp positive some_]
    have isSize := stores.size_eq_zero.mpr some_
    refine ⟨_, FifoStep.cleared ⟨contents, places⟩, ?_⟩
    dsimp only
    rw [isSize]
    exact stores_nil stores arePlaces ⟨stores.allocated, rfl, rfl, rfl⟩
  · obtain ⟨cleared, isCleared, resembles⟩ :=
      clearedElements_resembles stores some_
    rw [if_pos (isPositive.mpr some_), isCleared]
    exact ⟨_, FifoStep.cleared ⟨contents, places⟩,
      stores_nil stores arePlaces resembles⟩

/-! ## Putting an object behind the others -/

/-- The place behind the tail. -/
theorem nextTail
    {capacity tail : Nat}
    (isPlace : tail < capacity)
    (small : capacity < 2 ^ 31) :
    (Int32.ofNat tail + 1) % Int32.ofNat capacity =
      Int32.ofNat (advance capacity tail) := by
  have next : Int32.ofNat tail + 1 = Int32.ofNat (tail + 1) :=
    (Int32.ofNat_add tail 1).symm
  have isAdvance : (tail + 1) % capacity = advance capacity tail :=
    (@windowEnd_eq _ _ 1 isPlace).symm
  rw [next, ← isAdvance, Int32.ofNat_mod (by omega) (by omega)]

theorem StoresFrom.putElement_refines
    (stores : queue.StoresFrom head contents)
    (notFull : contents.length < queue._array.elements.length)
    (value : Element) :
    (queue.putElement (Int32.ofNat queue._array.elements.length) value).2 =
        .S_OK () ∧
      (queue.putElement (Int32.ofNat queue._array.elements.length)
        value).1.StoresFrom head (contents ++ [value]) ∧
      (queue.putElement (Int32.ofNat queue._array.elements.length)
        value).1._array.elements.length = queue._array.elements.length := by
  have small := stores.small
  have isPlace : windowEnd queue._array.elements.length head contents.length <
      queue._array.elements.length := by
    rw [windowEnd_eq stores.isPlace]
    exact Nat.mod_lt _ (by omega)
  have notMember := windowEnd_not_mem stores.isPlace notFull
  have wrote := stores.writes isPlace value
  have sameLength : (queue._array.elements.set
      (windowEnd queue._array.elements.length head contents.length)
      value).length = queue._array.elements.length := List.length_set
  have length : (contents ++ [value]).length = contents.length + 1 :=
    List.length_append
  unfold putElement
  rw [stores.isTail, Int32.toUInt32_ofNat', wrote]
  refine ⟨rfl, ?_, sameLength⟩
  constructor
  · exact stores.allocated.withElements sameLength
  · exact stores.type
  · exact stores.reference
  · dsimp only
    rw [sameLength]
    exact stores.isPlace
  · dsimp only
    rw [sameLength, length]
    exact notFull
  · exact stores.isHead
  · dsimp only
    rw [sameLength, length, windowEnd_snoc, nextTail isPlace (by omega)]
  · dsimp only
    rw [stores.isSize, length, Int32.ofNat_add]
    rfl
  · have elements := stores.elements
    rw [placesFrom] at elements ⊢
    dsimp only
    rw [sameLength, length, window_snoc, List.map_append, List.map_append,
      ← elements]
    congr 1
    · apply List.map_congr_left
      intro place member
      rw [List.getElem?_set_ne]
      rintro rfl
      exact notMember member
    · rw [List.map_singleton, List.map_singleton,
        List.getElem?_set_self isPlace]

end Stored

end CLR_RT_HeapBlock_Queue

end Collections

end NanoClr
