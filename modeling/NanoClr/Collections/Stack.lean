import NanoClr.Collections.ObjectArray
import NanoClr.Library.CallRuns

/-!
# Stacks

`CLR_RT_HeapBlock_Stack` keeps its objects at the end of an array, the newest
one first.
-/

namespace NanoClr

namespace Collections

open Arrays HeapBlock

/-- The stack; its fields are those of the managed class. -/
structure CLR_RT_HeapBlock_Stack (α : Type) where
  _array : ObjectArray α
  _size : Int32

namespace CLR_RT_HeapBlock_Stack

variable {α : Type}

/-! ## The calls -/

/-- `Pop`: the last object leaves, and NULL takes its place. -/
def Pop (stack : CLR_RT_HeapBlock_Stack α) :
    CLR_RT_HeapBlock_Stack α × CallResult (Option α) :=
  let array := stack._array
  let size := stack._size
  if size = 0 then
    (stack, .failed .CLR_E_INVALID_OPERATION)
  else
    let removed := array.m_numOfElements - size.toUInt32
    match readElement array removed, writeElements array removed [none] with
    | some value, some array => (⟨array, size - 1⟩, .S_OK value)
    | _, _ => (stack, .outside)

/-- The end of `Push`, on an array with a free element. -/
def pushTo (stack : CLR_RT_HeapBlock_Stack α) (capacity : Int32)
    (value : Option α) : CLR_RT_HeapBlock_Stack α × CallResult Unit :=
  let size := stack._size + 1
  match writeElements stack._array (capacity - size).toUInt32 [value] with
  | none => (stack, .outside)
  | some array => (⟨array, size⟩, .S_OK ())

/-- `Push`: an object comes in front of the others, in an array of twice the
length where the stack is full. -/
def Push (available : UInt32 → Bool) (stack : CLR_RT_HeapBlock_Stack α)
    (value : Option α) : CLR_RT_HeapBlock_Stack α × CallResult Unit :=
  let array := stack._array
  let size := stack._size
  let capacity := array.m_numOfElements.toInt32
  if size = capacity then
    let capacity := capacity * 2
    match newObjectArray available capacity.toUInt32 with
    | .failed hr => (stack, .failed hr)
    | .outside => (stack, .outside)
    | .S_OK newArray =>
        match copyElements newArray size.toUInt32 array 0 size.toUInt32 with
        | none => (stack, .outside)
        | some newArray => pushTo ⟨newArray, size⟩ capacity value
  else
    pushTo stack capacity value

/-- `Peek`: the last object, which stays. -/
def Peek (stack : CLR_RT_HeapBlock_Stack α) :
    CLR_RT_HeapBlock_Stack α × CallResult (Option α) :=
  let array := stack._array
  let size := stack._size
  if size = 0 then
    (stack, .failed .CLR_E_INVALID_OPERATION)
  else
    match readElement array (array.m_numOfElements - size.toUInt32) with
    | none => (stack, .outside)
    | some value => (stack, .S_OK value)

/-- `Clear`: the objects become NULL, and there are none. -/
def Clear (stack : CLR_RT_HeapBlock_Stack α) :
    CLR_RT_HeapBlock_Stack α × CallResult Unit :=
  let array := stack._array
  let size := stack._size
  match ClearElements array (array.m_numOfElements - size.toUInt32)
      size.toUInt32 with
  | none => (stack, .outside)
  | some array => (⟨array, 0⟩, .S_OK ())

/-- The capacity of a new stack. -/
def c_DefaultCapacity : UInt32 := 4

/-- A stack as it is constructed. -/
def newStack (α : Type) : CLR_RT_HeapBlock_Stack α where
  _array := clearedArray (Option α) c_DefaultCapacity
  _size := 0

/-- The calls; the heap at a `Push` has free runs of some lengths. -/
inductive StackCall (α : Type) where
  | push (available : UInt32 → Bool) (value : Option α)
  | pop
  | peek
  | clear

/-- A call and what it returns, which is NULL if it returns nothing. -/
def perform (stack : CLR_RT_HeapBlock_Stack α) :
    StackCall α → CLR_RT_HeapBlock_Stack α × CallResult (Option α)
  | .push available value =>
      let (stack, result) := stack.Push available value
      (stack, result.map fun _ => none)
  | .pop => stack.Pop
  | .peek => stack.Peek
  | .clear =>
      let (stack, result) := stack.Clear
      (stack, result.map fun _ => none)

/-! ## The stack as a list -/

/-- A last-in first-out list: its objects, newest first, and the number of
places for them. -/
structure Lifo (α : Type) where
  contents : List (Option α)
  places : Nat

/-- The objects are at the end of the array; the other elements are NULL. -/
structure Stores (stack : CLR_RT_HeapBlock_Stack α) (lifo : Lifo α) :
    Prop where
  allocated : Allocated stack._array
  positive : 0 < stack._array.elements.length
  places : stack._array.elements.length = lifo.places
  size : stack._size = Int32.ofNat lifo.contents.length
  elements : ∃ free,
    stack._array.elements = List.replicate free none ++ lifo.contents

/-- The places after a push: twice as many if there was none left. -/
def Lifo.placesAfterPush (lifo : Lifo α) : Nat :=
  if lifo.contents.length = lifo.places then lifo.places * 2 else lifo.places

/-- The calls on a last-in first-out list.  A push may only fail where no place
is left and the array cannot be replaced by one twice as large. -/
inductive LifoStep : Lifo α → StackCall α → CallResult (Option α) →
    Lifo α → Prop
  | pushed (lifo : Lifo α) (available : UInt32 → Bool) (value : Option α) :
      LifoStep lifo (.push available value) (.S_OK none)
        ⟨value :: lifo.contents, lifo.placesAfterPush⟩
  | pushRefused (lifo : Lifo α) (available : UInt32 → Bool)
      (value : Option α) (hr : HResult)
      (full : lifo.contents.length = lifo.places)
      (refuses : RefusesObjects available (UInt32.ofNat (lifo.places * 2))) :
      LifoStep lifo (.push available value) (.failed hr) lifo
  | popped (value : Option α) (rest : List (Option α)) (places : Nat) :
      LifoStep ⟨value :: rest, places⟩ .pop (.S_OK value) ⟨rest, places⟩
  | popEmpty (places : Nat) :
      LifoStep ⟨[], places⟩ .pop (.failed .CLR_E_INVALID_OPERATION)
        ⟨[], places⟩
  | peeked (value : Option α) (rest : List (Option α)) (places : Nat) :
      LifoStep ⟨value :: rest, places⟩ .peek (.S_OK value)
        ⟨value :: rest, places⟩
  | peekEmpty (places : Nat) :
      LifoStep ⟨[], places⟩ .peek (.failed .CLR_E_INVALID_OPERATION)
        ⟨[], places⟩
  | cleared (lifo : Lifo α) :
      LifoStep lifo .clear (.S_OK none) ⟨[], lifo.places⟩

/-- The pushes minus the pops since the last `Clear`, of those that succeed. -/
def countCall (count : Nat) : StackCall α × CallResult (Option α) → Nat
  | (.push _ _, .S_OK _) => count + 1
  | (.pop, .S_OK _) => count - 1
  | (.clear, .S_OK _) => 0
  | _ => count

/-! ## Each call -/

section Calls

variable {stack : CLR_RT_HeapBlock_Stack α} {contents : List (Option α)}
  {places : Nat}

namespace Stores

/-- An index at the end of the array, counted from there. -/
theorem fromEnd
    {free : Nat}
    (stores : stack.Stores ⟨contents, places⟩)
    (elements :
      stack._array.elements = List.replicate free none ++ contents) :
    stack._array.m_numOfElements - stack._size.toUInt32 =
      UInt32.ofNat free := by
  have length := congrArg List.length elements
  rw [List.length_append, List.length_replicate] at length
  rw [stores.allocated.numOfElements, stores.size, Int32.toUInt32_ofNat',
    length, UInt32.ofNat_add, UInt32.add_sub_cancel]

theorem size_eq_zero
    (stores : stack.Stores ⟨contents, places⟩) :
    stack._size = 0 ↔ contents = [] := by
  obtain ⟨free, elements⟩ := stores.elements
  have length := congrArg List.length elements
  rw [List.length_append] at length
  dsimp only at length
  have small : stack._array.elements.length < 0xFFFF := stores.allocated.small
  have fits : contents.length < 2 ^ 31 := by omega
  rw [stores.size, ← List.length_eq_zero_iff, ← Int32.toInt_inj,
    Int32.toInt_ofNat_of_lt fits, Int32.toInt_zero]
  omega

theorem readFirst
    {free : Nat}
    {value : Option α}
    {rest : List (Option α)}
    (stores : stack.Stores ⟨value :: rest, places⟩)
    (elements :
      stack._array.elements = List.replicate free none ++ value :: rest) :
    readElement stack._array
      (stack._array.m_numOfElements - stack._size.toUInt32) = some value := by
  have read := readElement_append stores.allocated.addressed elements
  rw [List.length_replicate] at read
  rw [stores.fromEnd elements, read]

/-- The stack with another array and size. -/
theorem withElements
    {elements : List (Option α)}
    (stores : stack.Stores ⟨contents, places⟩)
    (free : Nat)
    (later : List (Option α))
    (sameLength : elements.length = stack._array.elements.length)
    (are : elements = List.replicate free none ++ later) :
    Stores ⟨{ stack._array with elements := elements },
      Int32.ofNat later.length⟩ ⟨later, places⟩ where
  allocated := stores.allocated.withElements sameLength
  places := sameLength.trans stores.places
  positive := by
    have positive := stores.positive
    dsimp only
    omega
  size := rfl
  elements := ⟨free, are⟩

end Stores

theorem pop_refines (stores : stack.Stores ⟨contents, places⟩) :
    ∃ later, LifoStep ⟨contents, places⟩ .pop stack.Pop.2 later ∧
      stack.Pop.1.Stores later := by
  obtain ⟨free, elements⟩ := stores.elements
  unfold Pop
  dsimp only
  cases contents with
  | nil =>
      rw [if_pos (stores.size_eq_zero.mpr rfl)]
      exact ⟨_, LifoStep.popEmpty places, stores⟩
  | cons value rest =>
      rw [if_neg (fun isZero =>
        List.cons_ne_nil _ _ (stores.size_eq_zero.mp isZero))]
      have wrote : writeElements _ _ [none] = _ :=
        writeElement_append stores.allocated.addressed elements
      rw [List.length_replicate] at wrote
      rw [stores.readFirst elements, stores.fromEnd elements, wrote]
      refine ⟨_, LifoStep.popped value rest places, ?_⟩
      have size : stack._size - 1 = Int32.ofNat rest.length := by
        rw [stores.size, List.length_cons, Int32.ofNat_add]
        exact Int32.add_sub_cancel _ _
      dsimp only
      rw [size]
      apply stores.withElements (free + 1)
      · simp [elements]
      · rw [List.replicate_succ', List.append_assoc]
        rfl

theorem peek_refines (stores : stack.Stores ⟨contents, places⟩) :
    ∃ later, LifoStep ⟨contents, places⟩ .peek stack.Peek.2 later ∧
      stack.Peek.1.Stores later := by
  obtain ⟨free, elements⟩ := stores.elements
  unfold Peek
  dsimp only
  cases contents with
  | nil =>
      rw [if_pos (stores.size_eq_zero.mpr rfl)]
      exact ⟨_, LifoStep.peekEmpty places, stores⟩
  | cons value rest =>
      rw [if_neg (fun isZero =>
        List.cons_ne_nil _ _ (stores.size_eq_zero.mp isZero)),
        stores.readFirst elements]
      exact ⟨_, LifoStep.peeked value rest places, stores⟩

theorem clear_refines (stores : stack.Stores ⟨contents, places⟩) :
    stack.Clear.2 = .S_OK () ∧ stack.Clear.1.Stores ⟨[], places⟩ := by
  obtain ⟨free, elements⟩ := stores.elements
  have few : stack._size.toUInt32.toNat = contents.length := by
    have length := congrArg List.length elements
    rw [List.length_append] at length
    have small : stack._array.elements.length < 0xFFFF :=
      stores.allocated.small
    rw [stores.size, Int32.toUInt32_ofNat',
      UInt32.toNat_ofNat_of_lt' (show _ < 2 ^ 32 by omega)]
  have behind : stack._array.elements =
      List.replicate free none ++ contents ++ [] := by
    rw [elements, List.append_nil]
  have wrote : writeElements _ _ (List.replicate contents.length none) = _ :=
    writeElements_append stores.allocated.addressed behind (by simp)
  rw [List.length_replicate] at wrote
  unfold Clear ClearElements
  dsimp only
  rw [few, stores.fromEnd elements, null_option, wrote]
  refine ⟨rfl, stores.withElements (free + contents.length) [] ?_ ?_⟩
  · simp [elements]
  · simp [List.replicate_append_replicate]

/-- An object is pushed in front of the others. -/
theorem Stores.pushTo_refines
    {free : Nat}
    (stores : stack.Stores ⟨contents, places⟩)
    (elements : stack._array.elements =
      List.replicate (free + 1) none ++ contents)
    (value : Option α) :
    (stack.pushTo (Int32.ofNat stack._array.elements.length) value).2 =
        .S_OK () ∧
      (stack.pushTo (Int32.ofNat stack._array.elements.length) value).1.Stores
        ⟨value :: contents, places⟩ := by
  have size : stack._size + 1 = Int32.ofNat (contents.length + 1) := by
    rw [stores.size, Int32.ofNat_add]
    rfl
  have length : stack._array.elements.length =
      free + (contents.length + 1) := by
    rw [elements, List.length_append, List.length_replicate]
    omega
  have place : (Int32.ofNat stack._array.elements.length -
      Int32.ofNat (contents.length + 1)).toUInt32 = UInt32.ofNat free := by
    rw [← Int32.ofNat_sub _ _ (by omega), length, Nat.add_sub_cancel,
      Int32.toUInt32_ofNat']
  have last : stack._array.elements =
      List.replicate free none ++ none :: contents := by
    rw [elements, List.replicate_succ', List.append_assoc]
    rfl
  have wrote : writeElements _ _ [value] = _ :=
    writeElement_append stores.allocated.addressed last
  rw [List.length_replicate] at wrote
  unfold pushTo
  dsimp only
  rw [size, place, wrote]
  refine ⟨rfl, stores.withElements free (value :: contents) ?_ ?_⟩
  · rw [length]
    simp
  · rfl

theorem twice (length : Nat) :
    Int32.ofNat length * 2 = Int32.ofNat (length * 2) :=
  (Int32.ofNat_mul length 2).symm

/-- A full array is copied to the end of one twice as large. -/
theorem Stores.grown
    {available : UInt32 → Bool}
    (stores : stack.Stores ⟨contents, places⟩)
    (isFull : stack._array.elements = contents)
    (notRefused : ¬ RefusesObjects available
      (UInt32.ofNat (contents.length * 2))) :
    ∃ newArray : ObjectArray α,
      newObjectArray available (UInt32.ofNat (contents.length * 2)) =
          .S_OK (clearedArray (Option α) (UInt32.ofNat (contents.length * 2))) ∧
        copyElements (clearedArray (Option α) (UInt32.ofNat (contents.length * 2)))
            stack._size.toUInt32 stack._array 0 stack._size.toUInt32 =
          some newArray ∧
        newArray.elements =
          List.replicate contents.length none ++ contents ∧
        Stores ⟨newArray, stack._size⟩
          ⟨contents, contents.length * 2⟩ := by
  have positive := stores.positive
  have small : stack._array.elements.length < 0xFFFF := stores.allocated.small
  rw [isFull] at positive small
  have doubled : (UInt32.ofNat (contents.length * 2)).toNat =
      contents.length * 2 :=
    UInt32.toNat_ofNat_of_lt' (show _ < 2 ^ 32 by omega)
  have size : stack._size.toUInt32 = UInt32.ofNat contents.length := by
    rw [stores.size, Int32.toUInt32_ofNat']
  have few : (UInt32.ofNat contents.length).toNat = contents.length :=
    UInt32.toNat_ofNat_of_lt' (show _ < 2 ^ 32 by omega)
  have fits : SizeFits (UInt32.ofNat (contents.length * 2)) := by
    apply sizeFits_of_le
    omega
  have allocated : Allocated
      (clearedArray (Option α) (UInt32.ofNat (contents.length * 2))) :=
    clearedArray_allocated notRefused fits
  have cleared : (clearedArray (Option α)
      (UInt32.ofNat (contents.length * 2))).elements =
        List.replicate contents.length none ++
          List.replicate contents.length none ++ [] := by
    rw [clearedArray, doubled]
    simp [Nat.mul_two]
  have read : readElements stack._array 0 contents.length =
      some contents := by
    have inside : 0 + contents.length ≤ stack._array.elements.length := by
      rw [isFull]
      omega
    have isRead := readElements_inside stores.allocated.addressed inside
    rw [isFull, List.drop_zero, List.take_length] at isRead
    exact isRead
  have inside : contents.length + contents.length ≤ (clearedArray (Option α)
      (UInt32.ofNat (contents.length * 2))).elements.length := by
    rw [cleared]
    simp
  have wrote := writeElements_inside allocated.addressed inside
  rw [cleared, splice_append (by simp) (by simp), List.append_nil] at wrote
  rw [copyElements, size, few, read, Option.bind_some, wrote]
  refine ⟨_, newObjectArray_created notRefused fits, rfl, rfl, ?_⟩
  constructor
  · exact allocated.withElements (by rw [cleared]; simp)
  · simp only [List.length_append, List.length_replicate]
    omega
  · simp only [List.length_append, List.length_replicate]
    omega
  · exact stores.size
  · exact ⟨contents.length, rfl⟩

theorem push_refines
    {available : UInt32 → Bool}
    {value : Option α}
    (stores : stack.Stores ⟨contents, places⟩) :
    ∃ later,
      LifoStep ⟨contents, places⟩ (.push available value)
          ((stack.Push available value).2.map fun _ => none) later ∧
        (stack.Push available value).1.Stores later := by
  obtain ⟨free, elements⟩ := stores.elements
  have length := congrArg List.length elements
  rw [List.length_append, List.length_replicate] at length
  dsimp only at length
  have small : stack._array.elements.length < 0xFFFF := stores.allocated.small
  have isPlaces : stack._array.elements.length = places := stores.places
  have size : stack._size = Int32.ofNat contents.length := stores.size
  have isFull : stack._size = Int32.ofNat stack._array.elements.length ↔
      free = 0 := by
    rw [size, ← Int32.toInt_inj, Int32.toInt_ofNat_of_lt (by omega),
      Int32.toInt_ofNat_of_lt (by omega)]
    omega
  have pushed := LifoStep.pushed ⟨contents, places⟩ available value
  unfold Push
  dsimp only
  rw [stores.allocated.signed]
  cases free with
  | zero =>
      have full : contents.length = places := by
        rw [← isPlaces, length, Nat.zero_add]
      rw [List.replicate_zero, List.nil_append] at elements
      rw [if_pos (isFull.mpr rfl), elements, twice, Int32.toUInt32_ofNat']
      by_cases refuses : RefusesObjects available
          (UInt32.ofNat (contents.length * 2))
      · obtain ⟨hr, refused⟩ := @newObjectArray_refused (Option α) _ _ _ refuses
        rw [refused]
        rw [full] at refuses
        exact ⟨_, LifoStep.pushRefused ⟨contents, places⟩ available value hr
          full refuses, stores⟩
      · obtain ⟨newArray, created, copied, are, storesNew⟩ :=
          stores.grown elements refuses
        rw [created]
        dsimp only
        rw [copied]
        dsimp only
        have place : Int32.ofNat (contents.length * 2) =
            Int32.ofNat newArray.elements.length := by
          rw [are, List.length_append, List.length_replicate, ← Nat.mul_two]
        have positive := stores.positive
        rw [elements] at positive
        rw [← Nat.sub_add_cancel positive] at are
        obtain ⟨succeeds, storesLater⟩ := storesNew.pushTo_refines are value
        rw [place]
        dsimp only at succeeds storesLater
        rw [succeeds]
        rw [Lifo.placesAfterPush, if_pos full, ← full] at pushed
        exact ⟨_, full ▸ pushed, storesLater⟩
  | succ free =>
      have notFull : contents.length ≠ places := by omega
      rw [if_neg (fun full => Nat.succ_ne_zero free (isFull.mp full))]
      obtain ⟨succeeds, storesLater⟩ := stores.pushTo_refines elements value
      rw [succeeds]
      rw [Lifo.placesAfterPush, if_neg notFull] at pushed
      exact ⟨_, pushed, storesLater⟩

/-- Each call answers as a last-in first-out list does. -/
theorem perform_refines
    {lifo : Lifo α}
    (stores : stack.Stores lifo)
    (call : StackCall α) :
    ∃ later, LifoStep lifo call (stack.perform call).2 later ∧
      (stack.perform call).1.Stores later := by
  cases call with
  | push available value => exact push_refines stores
  | pop => exact pop_refines stores
  | peek => exact peek_refines stores
  | clear =>
      obtain ⟨succeeds, storesLater⟩ := clear_refines stores
      refine ⟨_, ?_, storesLater⟩
      dsimp only [perform]
      rw [succeeds]
      exact LifoStep.cleared lifo

end Calls

/-! ## Runs -/

/-- A new list has four places. -/
def newLifo (α : Type) : Lifo α := ⟨[], 4⟩

theorem newStack_stores : (newStack α).Stores (newLifo α) where
  allocated := by
    have notRefused : ¬ RefusesObjects (fun _ => true) c_DefaultCapacity := by
      unfold RefusesObjects
      decide
    have fits : SizeFits c_DefaultCapacity := by
      unfold SizeFits
      decide
    exact clearedArray_allocated notRefused fits
  positive := show 0 < 4 by decide
  places := rfl
  size := rfl
  elements := ⟨4, rfl⟩

/-- A step changes the number of objects as its call and answer count. -/
theorem LifoStep.counts
    {lifo later : Lifo α}
    {call : StackCall α}
    {result : CallResult (Option α)}
    (step : LifoStep lifo call result later) :
    later.contents.length =
      countCall lifo.contents.length (call, result) := by
  cases step <;> rfl

/-- A stack answers every sequence of calls as a last-in first-out list does.
Its size is the pushes minus the pops since the last `Clear`, and its objects
are at the end of the array, newest first. -/
theorem runCalls_isLifo (calls : List (StackCall α)) :
    ∃ lifo,
      AbstractRun LifoStep (newLifo α) calls
          (runCalls perform (newStack α) calls).2 lifo ∧
        (runCalls perform (newStack α) calls).1._size.toInt =
            (calls.zip (runCalls perform (newStack α) calls).2).foldl
              countCall 0 ∧
          (runCalls perform (newStack α) calls).1.Stores lifo := by
  have everyCall : EveryCall perform (fun _ _ => True) (newStack α) calls :=
    everyCall_true
  obtain ⟨lifo, run, stores⟩ :=
    runCalls_refines (fun _ _ call stores _ => perform_refines stores call)
      newStack_stores everyCall
  have counted : lifo.contents.length = _ :=
    run.measure fun _ _ _ _ step => step.counts
  have fits : lifo.contents.length < 2 ^ 31 := by
    obtain ⟨free, elements⟩ := stores.elements
    have small : _ < 0xFFFF := stores.allocated.small
    rw [elements, List.length_append] at small
    omega
  refine ⟨lifo, run, ?_, stores⟩
  rw [stores.size, Int32.toInt_ofNat_of_lt fits, counted]
  rfl

end CLR_RT_HeapBlock_Stack

end Collections

end NanoClr
