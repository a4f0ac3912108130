import Mathlib.Data.List.Induction
import NanoClr.Collections.ObjectArray
import NanoClr.Library.CallRuns

/-!
# Lists in arrays

`CLR_RT_HeapBlock_ArrayList` keeps its objects at the start of an array, which
is replaced by a larger one when it is full.
-/

namespace NanoClr

namespace Collections

open Arrays HeapBlock

/-- The list; its fields are those of the managed class. -/
structure CLR_RT_HeapBlock_ArrayList (α : Type) where
  _items : ObjectArray α
  _size : Int32

namespace CLR_RT_HeapBlock_ArrayList

variable {α : Type}

/-! ## The calls -/

/-- The places of a new list. -/
def c_DefaultCapacity : UInt32 := 4

/-- `GetItem`: the element at an index. -/
def GetItem (list : CLR_RT_HeapBlock_ArrayList α) (index : Int32) :
    CLR_RT_HeapBlock_ArrayList α × CallResult (Option α) :=
  if index < 0 ∨ list._size ≤ index then
    (list, .failed .CLR_E_OUT_OF_RANGE)
  else
    match readElement list._items index.toUInt32 with
    | none => (list, .outside)
    | some value => (list, .S_OK value)

/-- `SetItem`: a value takes the place of the element at an index. -/
def SetItem (list : CLR_RT_HeapBlock_ArrayList α) (index : Int32)
    (value : Option α) : CLR_RT_HeapBlock_ArrayList α × CallResult Unit :=
  if index < 0 ∨ list._size ≤ index then
    (list, .failed .CLR_E_OUT_OF_RANGE)
  else
    match writeElements list._items index.toUInt32 [value] with
    | none => (list, .outside)
    | some items => ({ list with _items := items }, .S_OK ())

/-- The capacity that is asked of the heap. -/
def atLeastDefault (newCapacity : UInt32) : UInt32 :=
  if newCapacity < c_DefaultCapacity then c_DefaultCapacity else newCapacity

/-- `SetCapacity`: the elements are copied to an array of another length. -/
def SetCapacity (available : UInt32 → Bool)
    (list : CLR_RT_HeapBlock_ArrayList α) (newCapacity : UInt32) :
    CLR_RT_HeapBlock_ArrayList α × CallResult Unit :=
  let items := list._items
  let size := list._size.toUInt32
  if newCapacity = items.m_numOfElements then
    (list, .S_OK ())
  else if newCapacity < size then
    (list, .failed .CLR_E_OUT_OF_RANGE)
  else
    match newObjectArray available (atLeastDefault newCapacity) with
    | .failed hr => (list, .failed hr)
    | .outside => (list, .outside)
    | .S_OK newItems =>
        match copyElements newItems 0 items 0 size with
        | none => (list, .outside)
        | some newItems => ({ list with _items := newItems }, .S_OK ())

/-- `EnsureCapacity`: the list grows by half, or to what is needed. -/
def EnsureCapacity (available : UInt32 → Bool)
    (list : CLR_RT_HeapBlock_ArrayList α) (min currentCapacity : Int32) :
    CLR_RT_HeapBlock_ArrayList α × CallResult Unit :=
  if currentCapacity < min then
    let newCapacity := currentCapacity * 3 / 2
    let newCapacity := if newCapacity < min then min else newCapacity
    list.SetCapacity available newCapacity.toUInt32
  else
    (list, .S_OK ())

/-- What `Add` and `Insert` do first: a full list gets a larger array. -/
def ensureFree (available : UInt32 → Bool)
    (list : CLR_RT_HeapBlock_ArrayList α) :
    CLR_RT_HeapBlock_ArrayList α × CallResult Unit :=
  let size := list._size
  let capacity := list._items.m_numOfElements.toInt32
  if size = capacity then
    list.EnsureCapacity available (size + 1) capacity
  else
    (list, .S_OK ())

/-- `Add`: a value comes behind the others, and its index is returned. -/
def Add (available : UInt32 → Bool) (list : CLR_RT_HeapBlock_ArrayList α)
    (value : Option α) : CLR_RT_HeapBlock_ArrayList α × CallResult Int32 :=
  let size := list._size
  match list.ensureFree available with
  | (list, .failed hr) => (list, .failed hr)
  | (list, .outside) => (list, .outside)
  | (list, .S_OK _) =>
      match writeElements list._items size.toUInt32 [value] with
      | none => (list, .outside)
      | some items => (⟨items, size + 1⟩, .S_OK size)

/-- `Clear`: the elements become NULL, and there are none. -/
def Clear (list : CLR_RT_HeapBlock_ArrayList α) :
    CLR_RT_HeapBlock_ArrayList α × CallResult Unit :=
  match ClearElements list._items 0 list._size.toUInt32 with
  | none => (list, .outside)
  | some items => (⟨items, 0⟩, .S_OK ())

/-- Move everything up one slot, from `current` on for so many rounds. -/
def moveUp (items : ObjectArray α) (current : UInt32) :
    Nat → Option (ObjectArray α)
  | 0 => some items
  | rounds + 1 =>
      (readElement items (current - 1)).bind fun moved =>
        (writeElements items current [moved]).bind fun items =>
          moveUp items (current - 1) rounds

/-- `Insert`: a value comes in front of the element at an index. -/
def Insert (available : UInt32 → Bool) (list : CLR_RT_HeapBlock_ArrayList α)
    (index : Int32) (value : Option α) :
    CLR_RT_HeapBlock_ArrayList α × CallResult Unit :=
  let size := list._size
  if index < 0 ∨ size < index then
    (list, .failed .CLR_E_OUT_OF_RANGE)
  else
    match list.ensureFree available with
    | (list, .failed hr) => (list, .failed hr)
    | (list, .outside) => (list, .outside)
    | (list, .S_OK _) =>
        -- the rounds after which `current` comes to `end`, none if it is there
        let rounds := if index < size then (size - index).toUInt32.toNat else 0
        match (moveUp list._items size.toUInt32 rounds).bind fun items =>
            writeElements items index.toUInt32 [value] with
        | none => (list, .outside)
        | some items => (⟨items, size + 1⟩, .S_OK ())

/-- Move everything down one slot, from `current` on for so many rounds. -/
def moveDown (items : ObjectArray α) (current : UInt32) :
    Nat → Option (ObjectArray α)
  | 0 => some items
  | rounds + 1 =>
      (readElement items (current + 1)).bind fun moved =>
        (writeElements items current [moved]).bind fun items =>
          moveDown items (current + 1) rounds

/-- `RemoveAt`: the elements behind an index move down by one. -/
def RemoveAt (list : CLR_RT_HeapBlock_ArrayList α) (index : Int32) :
    CLR_RT_HeapBlock_ArrayList α × CallResult Unit :=
  let size := list._size
  if index < 0 ∨ size ≤ index then
    (list, .failed .CLR_E_OUT_OF_RANGE)
  else
    let rounds :=
      if index < size - 1 then (size - 1 - index).toUInt32.toNat else 0
    let size := size - 1
    match (moveDown list._items index.toUInt32 rounds).bind fun items =>
        writeElements items size.toUInt32 [none] with
    | none => (list, .outside)
    | some items => (⟨items, size⟩, .S_OK ())

/-- A list as it is constructed. -/
def newArrayList (α : Type) : CLR_RT_HeapBlock_ArrayList α where
  _items := clearedArray (Option α) c_DefaultCapacity
  _size := 0

/-- The calls; the heap at some of them has free runs of some lengths. -/
inductive ListCall (α : Type) where
  | getItem (index : Int32)
  | setItem (index : Int32) (value : Option α)
  | add (available : UInt32 → Bool) (value : Option α)
  | clear
  | insert (available : UInt32 → Bool) (index : Int32) (value : Option α)
  | removeAt (index : Int32)
  | setCapacity (available : UInt32 → Bool) (newCapacity : UInt32)

/-- What a call gives back. -/
inductive ListAnswer (α : Type) where
  | nothing
  | value (value : Option α)
  | index (index : Int32)

/-- The list after a call, and what the call answers. -/
def perform (list : CLR_RT_HeapBlock_ArrayList α) :
    ListCall α → CLR_RT_HeapBlock_ArrayList α × CallResult (ListAnswer α)
  | .getItem index => (list.GetItem index).map id (·.map .value)
  | .setItem index value =>
      (list.SetItem index value).map id (·.map fun _ => .nothing)
  | .add available value => (list.Add available value).map id (·.map .index)
  | .clear => list.Clear.map id (·.map fun _ => .nothing)
  | .insert available index value =>
      (list.Insert available index value).map id (·.map fun _ => .nothing)
  | .removeAt index =>
      (list.RemoveAt index).map id (·.map fun _ => .nothing)
  | .setCapacity available newCapacity =>
      (list.SetCapacity available newCapacity).map id
        (·.map fun _ => .nothing)

/-! ## The list of the objects -/

/-- The objects are at the start of the array, which has room for all of them;
the other elements are NULL. -/
structure Stores (list : CLR_RT_HeapBlock_ArrayList α)
    (contents : List (Option α)) : Prop where
  allocated : Allocated list._items
  size : list._size = Int32.ofNat contents.length
  elements : ∃ free,
    list._items.elements = contents ++ List.replicate free none

/-- A list: its objects and the number of places for them. -/
structure Listing (α : Type) where
  contents : List (Option α)
  places : Nat

/-- The array has the objects of a list, in its places. -/
def Holds (list : CLR_RT_HeapBlock_ArrayList α) (listing : Listing α) : Prop :=
  list.Stores listing.contents ∧
    list._items.elements.length = listing.places

/-- An index of a list. -/
def IsIndex (index : Int32) (length : Nat) : Prop :=
  0 ≤ index.toInt ∧ index.toInt < length

/-- Calls with an index that is out of range, or a capacity below the count. -/
def OutOfRange (contents : List (Option α)) : ListCall α → Prop
  | .getItem index => ¬ IsIndex index contents.length
  | .setItem index _ => ¬ IsIndex index contents.length
  | .add _ _ => False
  | .clear => False
  | .insert _ index _ => ¬ IsIndex index (contents.length + 1)
  | .removeAt index => ¬ IsIndex index contents.length
  | .setCapacity _ newCapacity => newCapacity.toNat < contents.length

/-- The capacity that a full list is given. -/
def grownCapacity (capacity : Nat) : Nat :=
  max (capacity * 3 / 2) (capacity + 1)

/-- The array that a call takes is refused: a larger one for `Add` and `Insert`
where no place is left, or one of the capacity that is set. -/
def IsRefused (listing : Listing α) : ListCall α → Prop
  | .add available _ =>
      listing.contents.length = listing.places ∧
        RefusesObjects available
          (atLeastDefault (UInt32.ofNat (grownCapacity listing.places)))
  | .insert available _ _ =>
      listing.contents.length = listing.places ∧
        RefusesObjects available
          (atLeastDefault (UInt32.ofNat (grownCapacity listing.places)))
  | .setCapacity available newCapacity =>
      newCapacity.toNat ≠ listing.places ∧
        RefusesObjects available (atLeastDefault newCapacity)
  | _ => False

/-- The objects after a call. -/
def later (contents : List (Option α)) : ListCall α → List (Option α)
  | .getItem _ => contents
  | .setItem index value => contents.set index.toInt.toNat value
  | .add _ value => contents ++ [value]
  | .clear => []
  | .insert _ index value => contents.insertIdx index.toInt.toNat value
  | .removeAt index => contents.eraseIdx index.toInt.toNat
  | .setCapacity _ _ => contents

/-- The places after one is needed: more if there was none left. -/
def placesForOne (listing : Listing α) : Nat :=
  if listing.contents.length = listing.places then
    (atLeastDefault (UInt32.ofNat (grownCapacity listing.places))).toNat
  else
    listing.places

/-- The places after a call. -/
def laterPlaces (listing : Listing α) : ListCall α → Nat
  | .add _ _ => placesForOne listing
  | .insert _ _ _ => placesForOne listing
  | .setCapacity _ newCapacity =>
      if newCapacity.toNat = listing.places then
        listing.places
      else
        (atLeastDefault newCapacity).toNat
  | _ => listing.places

/-- What a call on a list gives back. -/
def answer (contents : List (Option α)) : ListCall α → ListAnswer α
  | .getItem index => .value (contents.getD index.toInt.toNat none)
  | .add _ _ => .index (Int32.ofNat contents.length)
  | _ => .nothing

/-- The calls on a list: those out of range and those that are refused memory
fail and change nothing. -/
inductive ListStep (listing : Listing α) (call : ListCall α) :
    CallResult (ListAnswer α) → Listing α → Prop
  | succeeds (inRange : ¬ OutOfRange listing.contents call) :
      ListStep listing call (.S_OK (answer listing.contents call))
        ⟨later listing.contents call, laterPlaces listing call⟩
  | outOfRange (isOutside : OutOfRange listing.contents call) :
      ListStep listing call (.failed .CLR_E_OUT_OF_RANGE) listing
  | refused (inRange : ¬ OutOfRange listing.contents call) (hr : HResult)
      (isRefused : IsRefused listing call) :
      ListStep listing call (.failed hr) listing

/-- The array that `SetCapacity` asks for is of a computable size, or none is
created. -/
def CapacityFits (list : CLR_RT_HeapBlock_ArrayList α) : ListCall α → Prop
  | .setCapacity available newCapacity =>
      newCapacity = list._items.m_numOfElements ∨
        newCapacity < list._size.toUInt32 ∨
          RefusesObjects available (atLeastDefault newCapacity) ∨
            SizeFits (atLeastDefault newCapacity)
  | _ => True

/-! ## The array -/

section Stored

variable {list : CLR_RT_HeapBlock_ArrayList α} {contents : List (Option α)}
  {places : Nat} {available : UInt32 → Bool}

namespace Stores

theorem fits (stores : list.Stores contents) :
    contents.length ≤ list._items.elements.length ∧
      list._items.elements.length < 0xFFFF := by
  obtain ⟨free, elements⟩ := stores.elements
  refine ⟨?_, stores.allocated.small⟩
  rw [elements, List.length_append]
  omega

/-- The size as an index. -/
theorem unsigned (stores : list.Stores contents) :
    list._size.toUInt32 = UInt32.ofNat contents.length := by
  rw [stores.size, Int32.toUInt32_ofNat']

theorem signed (stores : list.Stores contents) :
    list._size.toInt = contents.length := by
  have fits := stores.fits
  rw [stores.size, Int32.toInt_ofNat_of_lt (by omega)]

theorem unsigned_toNat (stores : list.Stores contents) :
    list._size.toUInt32.toNat = contents.length := by
  have fits := stores.fits
  rw [stores.unsigned, UInt32.toNat_ofNat_of_lt' (show _ < 2 ^ 32 by omega)]

/-- The objects are copied to a new array of the default capacity or more. -/
theorem copied
    {newCapacity : UInt32}
    (stores : list.Stores contents)
    (enough : contents.length ≤ newCapacity.toNat)
    (notRefused : ¬ RefusesObjects available newCapacity)
    (fits : SizeFits newCapacity) :
    ∃ newItems : ObjectArray α,
      copyElements (clearedArray (Option α) newCapacity) 0 list._items 0
          list._size.toUInt32 = some newItems ∧
        newItems.elements.length = newCapacity.toNat ∧
          Stores ⟨newItems, list._size⟩ contents := by
  obtain ⟨free, elements⟩ := stores.elements
  have allocated := @clearedArray_allocated (Option α) _ _ _ notRefused fits
  have cleared : (clearedArray (Option α) newCapacity).elements =
      [] ++ List.replicate contents.length none ++
        List.replicate (newCapacity.toNat - contents.length) none := by
    have total : contents.length + (newCapacity.toNat - contents.length) =
        newCapacity.toNat := by omega
    rw [clearedArray, List.nil_append, List.replicate_append_replicate, total]
    rfl
  have inside : 0 + contents.length ≤ list._items.elements.length := by
    rw [elements, List.length_append]
    omega
  have isRead := readElements_inside stores.allocated.addressed inside
  rw [elements, List.drop_zero, List.take_left] at isRead
  have room : 0 + contents.length ≤
      (clearedArray (Option α) newCapacity).elements.length := by
    rw [cleared]
    simp
  have wrote := writeElements_inside allocated.addressed room
  have atStart : 0 = ([] : List (Option α)).length := rfl
  rw [cleared, splice_append atStart (by simp), List.nil_append] at wrote
  have isZero : (0 : UInt32) = UInt32.ofNat 0 := rfl
  rw [copyElements, stores.unsigned_toNat, isZero, isRead, Option.bind_some,
    wrote]
  have sameLength : (contents ++ List.replicate
      (newCapacity.toNat - contents.length) none).length =
        (clearedArray (Option α) newCapacity).elements.length := by
    rw [cleared]
    simp
  refine ⟨_, rfl, ?_, ?_⟩
  · dsimp only
    rw [sameLength, clearedArray]
    exact List.length_replicate
  · constructor
    · exact allocated.withElements sameLength
    · exact stores.size
    · exact ⟨_, rfl⟩

end Stores

/-- The list with other elements and another size. -/
theorem Holds.withElements
    {elements : List (Option α)}
    (holds : list.Holds ⟨contents, places⟩)
    (free : Nat)
    (later : List (Option α))
    (sameLength : elements.length = list._items.elements.length)
    (are : elements = later ++ List.replicate free none) :
    Holds ⟨{ list._items with elements := elements },
      Int32.ofNat later.length⟩ ⟨later, places⟩ := by
  refine ⟨?_, sameLength.trans holds.2⟩
  constructor
  · exact holds.1.allocated.withElements sameLength
  · rfl
  · exact ⟨free, are⟩

/-! ## Capacities -/

section Capacity

variable {newCapacity : UInt32}

theorem le_atLeastDefault :
    newCapacity.toNat ≤ (atLeastDefault newCapacity).toNat := by
  unfold atLeastDefault
  split
  case isTrue below => exact Nat.le_of_lt (UInt32.lt_iff_toNat_lt.mp below)
  case isFalse => exact Nat.le_refl _

theorem atLeastDefault_le :
    (atLeastDefault newCapacity).toNat ≤ newCapacity.toNat + 4 := by
  unfold atLeastDefault
  split
  case isTrue =>
    have default : c_DefaultCapacity.toNat = 4 := rfl
    omega
  case isFalse => omega

theorem setCapacity_asks
    (stores : list.Stores contents)
    (changes : newCapacity ≠ list._items.m_numOfElements)
    (enough : contents.length ≤ newCapacity.toNat) :
    list.SetCapacity available newCapacity =
      match newObjectArray available (atLeastDefault newCapacity) with
      | .failed hr => (list, .failed hr)
      | .outside => (list, .outside)
      | .S_OK newItems =>
          match copyElements newItems 0 list._items 0
              list._size.toUInt32 with
          | none => (list, .outside)
          | some newItems => ({ list with _items := newItems }, .S_OK ()) := by
  unfold SetCapacity
  dsimp only
  rw [if_neg changes, if_neg]
  rw [UInt32.lt_iff_toNat_lt, stores.unsigned_toNat]
  omega

theorem setCapacity_refused
    (stores : list.Stores contents)
    (changes : newCapacity ≠ list._items.m_numOfElements)
    (enough : contents.length ≤ newCapacity.toNat)
    (refuses : RefusesObjects available (atLeastDefault newCapacity)) :
    ∃ hr, list.SetCapacity available newCapacity = (list, .failed hr) := by
  obtain ⟨hr, refused⟩ := @newObjectArray_refused (Option α) _ _ _ refuses
  rw [setCapacity_asks stores changes enough, refused]
  exact ⟨hr, rfl⟩

theorem setCapacity_outside
    (stores : list.Stores contents)
    (changes : newCapacity ≠ list._items.m_numOfElements)
    (enough : contents.length ≤ newCapacity.toNat)
    (notRefused : ¬ RefusesObjects available (atLeastDefault newCapacity))
    (wraps : ¬ SizeFits (atLeastDefault newCapacity)) :
    list.SetCapacity available newCapacity = (list, .outside) := by
  rw [setCapacity_asks stores changes enough,
    newObjectArray_outside notRefused wraps]

theorem setCapacity_created
    (stores : list.Stores contents)
    (changes : newCapacity ≠ list._items.m_numOfElements)
    (enough : contents.length ≤ newCapacity.toNat)
    (notRefused : ¬ RefusesObjects available (atLeastDefault newCapacity))
    (fits : SizeFits (atLeastDefault newCapacity)) :
    ∃ list', list.SetCapacity available newCapacity = (list', .S_OK ()) ∧
      list'.Stores contents ∧
        list'._items.elements.length = (atLeastDefault newCapacity).toNat := by
  have enoughAsked := Nat.le_trans enough le_atLeastDefault
  obtain ⟨newItems, copied, length, storesNew⟩ :=
    stores.copied enoughAsked notRefused fits
  rw [setCapacity_asks stores changes enough,
    newObjectArray_created notRefused fits]
  dsimp only
  rw [copied]
  exact ⟨_, rfl, storesNew, length⟩

theorem ensureCapacity_full
    {capacity : Nat}
    (small : capacity < 0xFFFF) :
    list.EnsureCapacity available (Int32.ofNat capacity + 1)
        (Int32.ofNat capacity) =
      list.SetCapacity available (UInt32.ofNat (grownCapacity capacity)) := by
  have next : Int32.ofNat capacity + 1 = Int32.ofNat (capacity + 1) :=
    (Int32.ofNat_add capacity 1).symm
  have half : Int32.ofNat capacity * 3 / 2 =
      Int32.ofNat (capacity * 3 / 2) := by
    rw [Int32.ofNat_div (by omega) (by omega), Int32.ofNat_mul]
    rfl
  unfold EnsureCapacity
  dsimp only
  rw [next, half, if_pos ((Int32.ofNat_lt_iff_lt (by omega) (by omega)).mpr
    (Nat.lt_succ_self capacity))]
  congr 1
  split
  case isTrue less =>
    rw [Int32.ofNat_lt_iff_lt (by omega) (by omega)] at less
    rw [Int32.toUInt32_ofNat', grownCapacity, Nat.max_eq_right (by omega)]
  case isFalse more =>
    rw [Int32.ofNat_lt_iff_lt (by omega) (by omega)] at more
    rw [Int32.toUInt32_ofNat', grownCapacity, Nat.max_eq_left (by omega)]

/-- A list that has to grow is either left as it is or has a free element
afterwards. -/
theorem ensureFree_refines (holds : list.Holds ⟨contents, places⟩) :
    (∃ hr, list.ensureFree available = (list, .failed hr) ∧
      contents.length = places ∧ RefusesObjects available
        (atLeastDefault (UInt32.ofNat (grownCapacity places)))) ∨
    ∃ list', list.ensureFree available = (list', .S_OK ()) ∧
      list'.Holds ⟨contents, placesForOne ⟨contents, places⟩⟩ ∧
        contents.length < list'._items.elements.length := by
  obtain ⟨stores, arePlaces⟩ := holds
  dsimp only at stores arePlaces
  rw [← arePlaces, placesForOne]
  dsimp only
  obtain ⟨inside, small⟩ := stores.fits
  have isFull : list._size = list._items.m_numOfElements.toInt32 ↔
      contents.length = list._items.elements.length := by
    rw [stores.size, stores.allocated.signed, ← Int32.toInt_inj,
      Int32.toInt_ofNat_of_lt (by omega), Int32.toInt_ofNat_of_lt (by omega)]
    omega
  unfold ensureFree
  dsimp only
  by_cases full : contents.length = list._items.elements.length
  · have grown : (UInt32.ofNat (grownCapacity contents.length)).toNat =
        grownCapacity contents.length := by
      apply UInt32.toNat_ofNat_of_lt'
      rw [grownCapacity]
      exact show _ < 2 ^ 32 by omega
    have atLeast : contents.length + 1 ≤ grownCapacity contents.length :=
      Nat.le_max_right _ _
    have changes : UInt32.ofNat (grownCapacity contents.length) ≠
        list._items.m_numOfElements := by
      intro same
      have sameNat := congrArg UInt32.toNat same
      rw [grown, ← stores.allocated.length] at sameNat
      omega
    have enough : contents.length ≤
        (UInt32.ofNat (grownCapacity contents.length)).toNat := by
      omega
    rw [if_pos (isFull.mpr full), ← isFull.mpr full, stores.size,
      ensureCapacity_full (by omega), ← full, if_pos rfl]
    by_cases refuses : RefusesObjects available
        (atLeastDefault (UInt32.ofNat (grownCapacity contents.length)))
    · obtain ⟨hr, refused⟩ := setCapacity_refused stores changes enough refuses
      exact Or.inl ⟨hr, refused, rfl, refuses⟩
    · have fits : SizeFits
          (atLeastDefault (UInt32.ofNat (grownCapacity contents.length))) := by
        apply sizeFits_of_le
        apply Nat.le_trans atLeastDefault_le
        rw [grown, grownCapacity]
        omega
      obtain ⟨list', created, storesNew, length⟩ :=
        setCapacity_created stores changes enough refuses fits
      have room := @le_atLeastDefault
        (UInt32.ofNat (grownCapacity contents.length))
      exact Or.inr ⟨list', created, ⟨storesNew, length⟩, by omega⟩
  · rw [if_neg fun same => full (isFull.mp same), if_neg full]
    exact Or.inr ⟨list, rfl, ⟨stores, rfl⟩, by omega⟩

end Capacity

/-! ## Moving elements -/

section Moves

variable {items : ObjectArray α} {before run after : List (Option α)}
  {value : Option α}

/-- Moving a run up one slot overwrites the element behind it. -/
theorem moveUp_moves
    (addressed : items.Addressed)
    (elements : items.elements = before ++ run ++ value :: after) :
    ∃ first, moveUp items (UInt32.ofNat (before.length + run.length))
        run.length =
      some { items with elements := before ++ first :: (run ++ after) } := by
  induction run using List.reverseRecOn generalizing items value after with
  | nil =>
      rw [List.append_nil] at elements
      refine ⟨value, ?_⟩
      rw [List.nil_append, ← elements]
      rfl
  | append_singleton run last inductionHypothesis =>
      have isLast : items.elements =
          (before ++ run) ++ last :: value :: after := by
        rw [elements]
        simp
      have isBehind : items.elements =
          (before ++ run ++ [last]) ++ value :: after := by
        rw [elements]
        simp
      have read := readElement_append addressed isLast
      have wrote : writeElements _ _ [last] = _ :=
        writeElement_append addressed isBehind
      have places : before.length + (run ++ [last]).length =
          (before ++ run).length + 1 := by
        simp only [List.length_append, List.length_singleton, Nat.add_assoc]
      have placeBehind : (before ++ run ++ [last]).length =
          (before ++ run).length + 1 := List.length_append
      have rounds : (run ++ [last]).length = run.length + 1 :=
        List.length_append
      rw [placeBehind, UInt32.ofNat_add] at wrote
      have isOne : (1 : UInt32) = UInt32.ofNat 1 := rfl
      rw [places, rounds, moveUp, UInt32.ofNat_add, isOne,
        UInt32.add_sub_cancel, read, Option.bind_some, wrote, Option.bind_some,
        List.length_append]
      have addressed' : CLR_RT_HeapBlock_Array.Addressed
          { items with elements :=
            before ++ run ++ [last] ++ last :: after } := by
        apply addressed.withElements
        rw [elements]
        simp [Nat.add_assoc]
      obtain ⟨first, moved⟩ :=
        inductionHypothesis addressed' (List.append_assoc _ _ _)
      have same : run ++ [last] ++ after = run ++ last :: after :=
        List.append_assoc run [last] after
      rw [same]
      exact ⟨first, moved⟩

/-- Moving a run down one slot overwrites the element in front of it. -/
theorem moveDown_moves
    (addressed : items.Addressed)
    (elements : items.elements = before ++ value :: run ++ after) :
    ∃ last, moveDown items (UInt32.ofNat before.length) run.length =
      some { items with elements := before ++ run ++ last :: after } := by
  induction run generalizing items value before with
  | nil =>
      refine ⟨value, ?_⟩
      rw [List.append_assoc] at elements
      rw [List.append_nil, ← List.singleton_append, ← elements]
      rfl
  | cons next run inductionHypothesis =>
      have isNext : items.elements =
          (before ++ [value]) ++ next :: (run ++ after) := by
        rw [elements]
        simp
      have isFront : items.elements =
          before ++ value :: (next :: run ++ after) := by
        rw [elements]
        simp
      have read := readElement_append addressed isNext
      have wrote : writeElements _ _ [next] = _ :=
        writeElement_append addressed isFront
      rw [List.length_append, UInt32.ofNat_add] at read
      rw [List.length_cons, moveDown]
      have isOne : (1 : UInt32) = UInt32.ofNat [value].length := rfl
      rw [isOne, read, Option.bind_some, wrote, Option.bind_some]
      have addressed' : CLR_RT_HeapBlock_Array.Addressed
          { items with elements := before ++ next :: (next :: run ++ after) } :=
        addressed.withElements (by rw [elements]; simp)
      have shifted : before ++ next :: (next :: run ++ after) =
          (before ++ [next]) ++ next :: run ++ after := by
        simp
      obtain ⟨last, moved⟩ := inductionHypothesis addressed' shifted
      refine ⟨last, ?_⟩
      rw [List.length_append, UInt32.ofNat_add] at moved
      rw [show UInt32.ofNat [value].length = UInt32.ofNat [next].length from
        rfl, moved]
      simp

end Moves

/-! ## Indices -/

theorem insertIdx_append
    {β : Type}
    {value : β}
    (before after : List β) :
    (before ++ after).insertIdx before.length value =
      before ++ value :: after := by
  induction before with
  | nil => rfl
  | cons first before inductionHypothesis =>
      rw [List.cons_append, List.length_cons, List.insertIdx_succ_cons,
        inductionHypothesis, List.cons_append]

/-- An index as a place of the list. -/
theorem IsIndex.exists_place
    {index : Int32}
    {length : Nat}
    (isIndex : IsIndex index length) :
    ∃ place < length, index.toInt.toNat = place ∧
      index = Int32.ofNat place ∧ index.toUInt32 = UInt32.ofNat place := by
  obtain ⟨nonnegative, below⟩ := isIndex
  have upper := Int32.toInt_lt index
  have isPlace : index = Int32.ofNat index.toInt.toNat := by
    rw [← Int32.toInt_inj, Int32.toInt_ofNat_of_lt (by omega)]
    omega
  refine ⟨index.toInt.toNat, by omega, rfl, isPlace, ?_⟩
  rw [← Int32.toUInt32_ofNat', ← isPlace]

/-- The rounds from one place to another one. -/
theorem rounds_eq
    {place length : Nat}
    (inside : place ≤ length)
    (small : length < 2 ^ 31) :
    (if Int32.ofNat place < Int32.ofNat length then
        (Int32.ofNat length - Int32.ofNat place).toUInt32.toNat
      else
        0) = length - place := by
  rw [← Int32.ofNat_sub _ _ inside, Int32.toUInt32_ofNat',
    UInt32.toNat_ofNat_of_lt' (show _ < 2 ^ 32 by omega)]
  split
  case isTrue => rfl
  case isFalse notBelow =>
    rw [Int32.ofNat_lt_iff_lt (by omega) small] at notBelow
    omega

/-- The range check of `GetItem`, `SetItem` and `RemoveAt`. -/
theorem Stores.outside_iff
    (stores : list.Stores contents)
    (index : Int32) :
    index < 0 ∨ list._size ≤ index ↔ ¬ IsIndex index contents.length := by
  rw [Int32.lt_iff_toInt_lt, Int32.le_iff_toInt_le, stores.signed,
    Int32.toInt_zero, IsIndex]
  omega

/-- The range check of `Insert`. -/
theorem Stores.behind_iff
    (stores : list.Stores contents)
    (index : Int32) :
    index < 0 ∨ list._size < index ↔
      ¬ IsIndex index (contents.length + 1) := by
  rw [Int32.lt_iff_toInt_lt, Int32.lt_iff_toInt_lt, stores.signed,
    Int32.toInt_zero, IsIndex]
  omega

/-! ## Each call -/

theorem getItem_refines
    (holds : list.Holds ⟨contents, places⟩)
    (index : Int32) :
    ∃ next,
      ListStep ⟨contents, places⟩ (.getItem index)
          (list.perform (.getItem index)).2 next ∧
        (list.perform (.getItem index)).1.Holds next := by
  have stores : list.Stores contents := holds.1
  dsimp only [perform, GetItem]
  by_cases isIndex : IsIndex index contents.length
  · rw [if_neg fun outside => (stores.outside_iff index).mp outside isIndex]
    obtain ⟨place, inside, isPlace, -, isUnsigned⟩ := isIndex.exists_place
    obtain ⟨before, value, after, rfl, rfl⟩ := exists_split inside
    obtain ⟨free, elements⟩ := stores.elements
    rw [List.append_assoc] at elements
    rw [isUnsigned, readElement_append stores.allocated.addressed elements]
    refine ⟨_, ?_, holds⟩
    have answered : answer (before ++ value :: after) (.getItem index) =
        .value value := by
      simp [answer, isPlace]
    have step : ListStep ⟨before ++ value :: after, places⟩ (.getItem index)
        _ _ :=
      ListStep.succeeds (not_not.mpr isIndex)
    rw [answered] at step
    exact step
  · rw [if_pos ((stores.outside_iff index).mpr isIndex)]
    exact ⟨_, ListStep.outOfRange isIndex, holds⟩

theorem setItem_refines
    (holds : list.Holds ⟨contents, places⟩)
    (index : Int32)
    (value : Option α) :
    ∃ next,
      ListStep ⟨contents, places⟩ (.setItem index value)
          (list.perform (.setItem index value)).2 next ∧
        (list.perform (.setItem index value)).1.Holds next := by
  have stores : list.Stores contents := holds.1
  dsimp only [perform, SetItem]
  by_cases isIndex : IsIndex index contents.length
  · rw [if_neg fun outside => (stores.outside_iff index).mp outside isIndex]
    obtain ⟨place, inside, isPlace, -, isUnsigned⟩ := isIndex.exists_place
    obtain ⟨before, covered, after, rfl, rfl⟩ := exists_split inside
    obtain ⟨free, elements⟩ := stores.elements
    rw [List.append_assoc] at elements
    have wrote : writeElements _ _ [value] = _ :=
      writeElement_append stores.allocated.addressed elements
    rw [isUnsigned, wrote]
    refine ⟨_, ListStep.succeeds (not_not.mpr isIndex), ?_⟩
    have changed : later (before ++ covered :: after) (.setItem index value) =
        before ++ value :: after := by
      simp [later, isPlace]
    have size : list._size =
        Int32.ofNat (before ++ value :: after).length := by
      rw [stores.size]
      simp
    rw [changed]
    dsimp only [Prod.map, id]
    rw [size]
    apply holds.withElements free
    · rw [elements]
      simp
    · simp
  · rw [if_pos ((stores.outside_iff index).mpr isIndex)]
    exact ⟨_, ListStep.outOfRange isIndex, holds⟩

theorem clear_refines (holds : list.Holds ⟨contents, places⟩) :
    ∃ next,
      ListStep ⟨contents, places⟩ .clear (list.perform .clear).2 next ∧
        (list.perform .clear).1.Holds next := by
  have stores : list.Stores contents := holds.1
  obtain ⟨free, elements⟩ := stores.elements
  have front : list._items.elements =
      [] ++ contents ++ List.replicate free none := elements
  have wrote : writeElements _ _ (List.replicate contents.length none) = _ :=
    writeElements_append stores.allocated.addressed front (by simp)
  have isZero : (0 : UInt32) = UInt32.ofNat ([] : List (Option α)).length := rfl
  dsimp only [perform, Clear, ClearElements]
  rw [stores.unsigned_toNat, isZero, null_option, wrote]
  refine ⟨_, ListStep.succeeds not_false, ?_⟩
  apply holds.withElements (contents.length + free) []
  · rw [elements]
    simp
  · simp

/-- The element behind the objects of a list that is not full. -/
theorem Stores.exists_free
    (stores : list.Stores contents)
    (notFull : contents.length < list._items.elements.length) :
    ∃ free, list._items.elements =
      contents ++ none :: List.replicate free none := by
  obtain ⟨free, elements⟩ := stores.elements
  cases free with
  | zero =>
      rw [elements] at notFull
      simp at notFull
  | succ free => exact ⟨free, elements⟩

theorem Stores.next_size (stores : list.Stores contents) :
    list._size + 1 = Int32.ofNat (contents.length + 1) := by
  rw [stores.size, Int32.ofNat_add]
  rfl

theorem add_refines
    (holds : list.Holds ⟨contents, places⟩)
    (available : UInt32 → Bool)
    (value : Option α) :
    ∃ next,
      ListStep ⟨contents, places⟩ (.add available value)
          (list.perform (.add available value)).2 next ∧
        (list.perform (.add available value)).1.Holds next := by
  have stores : list.Stores contents := holds.1
  dsimp only [perform, Add]
  rcases @ensureFree_refines _ _ _ _ available holds with
    ⟨hr, refused, full, refuses⟩ | ⟨list', ensured, holds', notFull⟩
  · rw [refused]
    have inRange : ¬ OutOfRange contents (.add available value) := not_false
    exact ⟨_, ListStep.refused inRange hr ⟨full, refuses⟩, holds⟩
  · have stores' : list'.Stores contents := holds'.1
    obtain ⟨free, elements⟩ := stores'.exists_free notFull
    have wrote : writeElements _ _ [value] = _ :=
      writeElement_append stores'.allocated.addressed elements
    have sameSize : list._size = list'._size :=
      stores.size.trans stores'.size.symm
    rw [ensured]
    dsimp only
    rw [sameSize, stores'.unsigned, wrote, stores'.next_size, stores'.size]
    refine ⟨_, ListStep.succeeds not_false, ?_⟩
    have length : contents.length + 1 = (contents ++ [value]).length := by
      rw [List.length_append, List.length_singleton]
    dsimp only [Prod.map, id]
    rw [length]
    apply holds'.withElements free (contents ++ [value])
    · rw [elements]
      simp
    · simp

theorem insert_refines
    (holds : list.Holds ⟨contents, places⟩)
    (available : UInt32 → Bool)
    (index : Int32)
    (value : Option α) :
    ∃ next,
      ListStep ⟨contents, places⟩ (.insert available index value)
          (list.perform (.insert available index value)).2 next ∧
        (list.perform (.insert available index value)).1.Holds next := by
  have stores : list.Stores contents := holds.1
  dsimp only [perform, Insert]
  by_cases isIndex : IsIndex index (contents.length + 1)
  · have inRange : ¬ OutOfRange contents (.insert available index value) :=
      not_not.mpr isIndex
    rw [if_neg fun outside => (stores.behind_iff index).mp outside isIndex]
    rcases @ensureFree_refines _ _ _ _ available holds with
      ⟨hr, refused, full, refuses⟩ | ⟨list', ensured, holds', notFull⟩
    · rw [refused]
      exact ⟨_, ListStep.refused inRange hr ⟨full, refuses⟩, holds⟩
    · have stores' : list'.Stores contents := holds'.1
      obtain ⟨free, elements⟩ := stores'.exists_free notFull
      have sameSize : list._size = list'._size :=
        stores.size.trans stores'.size.symm
      obtain ⟨place, inside, isPlace, isSigned, isUnsigned⟩ :=
        isIndex.exists_place
      obtain ⟨before, run, rfl, rfl⟩ :=
        exists_append (Nat.le_of_lt_succ inside)
      have small := stores.fits
      have rounds := rounds_eq (Nat.le_of_lt_succ inside) (by omega)
      rw [List.length_append, Nat.add_sub_cancel_left, ← isSigned] at rounds
      obtain ⟨first, moved⟩ :=
        moveUp_moves stores'.allocated.addressed elements
      have addressed' : CLR_RT_HeapBlock_Array.Addressed
          { list'._items with elements :=
            before ++ first :: (run ++ List.replicate free none) } := by
        apply stores'.allocated.addressed.withElements
        rw [elements]
        simp
        omega
      have wrote : writeElements _ _ [value] = _ :=
        writeElement_append addressed' rfl
      rw [ensured]
      dsimp only
      rw [sameSize, stores'.size, List.length_append, rounds, isUnsigned,
        Int32.toUInt32_ofNat', moved, Option.bind_some, wrote]
      refine ⟨_, ListStep.succeeds inRange, ?_⟩
      have changed : later (before ++ run) (.insert available index value) =
          before ++ value :: run := by
        rw [later, isPlace, insertIdx_append]
      have length : before.length + run.length + 1 =
          (before ++ value :: run).length := by
        simp
        omega
      rw [changed]
      dsimp only [Prod.map, id]
      have next : Int32.ofNat (before.length + run.length) + 1 =
          Int32.ofNat (before.length + run.length + 1) :=
        (Int32.ofNat_add _ 1).symm
      rw [next, length]
      apply holds'.withElements free
      · rw [elements]
        simp
        omega
      · simp
  · rw [if_pos ((stores.behind_iff index).mpr isIndex)]
    exact ⟨_, ListStep.outOfRange isIndex, holds⟩

theorem removeAt_refines
    (holds : list.Holds ⟨contents, places⟩)
    (index : Int32) :
    ∃ next,
      ListStep ⟨contents, places⟩ (.removeAt index)
          (list.perform (.removeAt index)).2 next ∧
        (list.perform (.removeAt index)).1.Holds next := by
  have stores : list.Stores contents := holds.1
  dsimp only [perform, RemoveAt]
  by_cases isIndex : IsIndex index contents.length
  · have inRange : ¬ OutOfRange contents (.removeAt index) :=
      not_not.mpr isIndex
    rw [if_neg fun outside => (stores.outside_iff index).mp outside isIndex]
    obtain ⟨place, inside, isPlace, isSigned, isUnsigned⟩ :=
      isIndex.exists_place
    obtain ⟨before, value, run, rfl, rfl⟩ := exists_split inside
    obtain ⟨free, elements⟩ := stores.elements
    have small := stores.fits
    have length : (before ++ value :: run).length =
        (before ++ run).length + 1 := by
      simp
      omega
    have size : list._size - 1 = Int32.ofNat (before ++ run).length := by
      rw [stores.size, length, Int32.ofNat_add]
      exact Int32.add_sub_cancel _ _
    have behind : before.length ≤ (before ++ run).length := by simp
    have rounds := rounds_eq behind (by omega)
    rw [← isSigned, ← size, List.length_append,
      Nat.add_sub_cancel_left] at rounds
    obtain ⟨last, moved⟩ :=
      moveDown_moves stores.allocated.addressed elements
    have addressed' : CLR_RT_HeapBlock_Array.Addressed
        { list._items with elements :=
          before ++ run ++ last :: List.replicate free none } := by
      apply stores.allocated.addressed.withElements
      rw [elements]
      simp
      omega
    have wrote : writeElements _ _ [none] = _ :=
      writeElement_append addressed' rfl
    rw [rounds, isUnsigned, moved, Option.bind_some, size,
      Int32.toUInt32_ofNat', wrote]
    refine ⟨_, ListStep.succeeds inRange, ?_⟩
    have changed : later (before ++ value :: run) (.removeAt index) =
        before ++ run := by
      rw [later, isPlace, List.eraseIdx_append_of_length_le (Nat.le_refl _),
        Nat.sub_self, List.eraseIdx_cons_zero]
    rw [changed]
    dsimp only [Prod.map, id]
    apply holds.withElements (free + 1)
    · rw [elements]
      simp
      omega
    · rfl
  · rw [if_pos ((stores.outside_iff index).mpr isIndex)]
    exact ⟨_, ListStep.outOfRange isIndex, holds⟩

theorem setCapacity_refines
    {newCapacity : UInt32}
    (holds : list.Holds ⟨contents, places⟩)
    (fits : list.CapacityFits (.setCapacity available newCapacity)) :
    ∃ next,
      ListStep ⟨contents, places⟩ (.setCapacity available newCapacity)
          (list.perform (.setCapacity available newCapacity)).2 next ∧
        (list.perform (.setCapacity available newCapacity)).1.Holds next := by
  obtain ⟨stores, arePlaces⟩ := holds
  dsimp only at stores arePlaces
  have inside := stores.fits
  have enough_iff : newCapacity < list._size.toUInt32 ↔
      newCapacity.toNat < contents.length := by
    rw [UInt32.lt_iff_toNat_lt, stores.unsigned_toNat]
  have same_iff : newCapacity = list._items.m_numOfElements ↔
      newCapacity.toNat = places := by
    rw [← UInt32.toNat_inj, ← stores.allocated.length, arePlaces]
  dsimp only [perform]
  by_cases changes : newCapacity = list._items.m_numOfElements
  · have inRange :
        ¬ OutOfRange contents (.setCapacity available newCapacity) := by
      rw [OutOfRange, changes, ← stores.allocated.length]
      omega
    rw [SetCapacity, if_pos changes]
    refine ⟨_, ListStep.succeeds inRange, stores, ?_⟩
    dsimp only [laterPlaces]
    rw [if_pos (same_iff.mp changes)]
    exact arePlaces
  · by_cases tooSmall : newCapacity < list._size.toUInt32
    · rw [SetCapacity, if_neg changes, if_pos tooSmall]
      exact ⟨_, ListStep.outOfRange (enough_iff.mp tooSmall), stores,
        arePlaces⟩
    · have inRange :
          ¬ OutOfRange contents (.setCapacity available newCapacity) :=
        fun below => tooSmall (enough_iff.mpr below)
      have enough : contents.length ≤ newCapacity.toNat :=
        Nat.le_of_not_lt inRange
      have differs : newCapacity.toNat ≠ places :=
        fun same => changes (same_iff.mpr same)
      by_cases refuses : RefusesObjects available (atLeastDefault newCapacity)
      · obtain ⟨hr, refused⟩ :=
          setCapacity_refused stores changes enough refuses
        rw [refused]
        exact ⟨_, ListStep.refused inRange hr ⟨differs, refuses⟩, stores,
          arePlaces⟩
      · have sizeFits := ((fits.resolve_left changes).resolve_left
          tooSmall).resolve_left refuses
        obtain ⟨list', created, stores', length⟩ :=
          setCapacity_created stores changes enough refuses sizeFits
        rw [created]
        refine ⟨_, ListStep.succeeds inRange, stores', ?_⟩
        dsimp only [laterPlaces]
        rw [if_neg differs]
        exact length

/-- The calls that answer as a list does and keep the objects are those whose
capacity fits. -/
theorem capacityFits_of_step
    {listing next : Listing α}
    {call : ListCall α}
    (holds : list.Holds listing)
    (step : ListStep listing call (list.perform call).2 next) :
    list.CapacityFits call := by
  have stores := holds.1
  cases call with
  | setCapacity available newCapacity =>
      by_contra fits
      rw [CapacityFits, not_or, not_or, not_or] at fits
      obtain ⟨changes, notSmall, notRefused, wraps⟩ := fits
      have enough : listing.contents.length ≤ newCapacity.toNat := by
        rw [UInt32.lt_iff_toNat_lt, stores.unsigned_toNat] at notSmall
        omega
      rw [perform, setCapacity_outside stores changes enough notRefused
        wraps] at step
      cases step
  | _ => trivial

theorem perform_refines
    {call : ListCall α}
    (holds : list.Holds ⟨contents, places⟩)
    (fits : list.CapacityFits call) :
    ∃ next, ListStep ⟨contents, places⟩ call (list.perform call).2 next ∧
      (list.perform call).1.Holds next := by
  cases call with
  | getItem index => exact getItem_refines holds index
  | setItem index value => exact setItem_refines holds index value
  | add available value => exact add_refines holds available value
  | clear => exact clear_refines holds
  | insert available index value =>
      exact insert_refines holds available index value
  | removeAt index => exact removeAt_refines holds index
  | setCapacity available newCapacity =>
      exact setCapacity_refines holds fits

end Stored

/-! ## Runs -/

/-- A new list has four places. -/
def newListing (α : Type) : Listing α := ⟨[], 4⟩

theorem newArrayList_holds : (newArrayList α).Holds (newListing α) := by
  have notRefused : ¬ RefusesObjects (fun _ => true) c_DefaultCapacity := by
    unfold RefusesObjects
    decide
  refine ⟨?_, rfl⟩
  constructor
  · exact clearedArray_allocated notRefused (sizeFits_of_le (by decide))
  · rfl
  · exact ⟨4, rfl⟩

/-- In a run the objects are after each call those of a list under the same
calls, exactly where the capacities that `SetCapacity` asks for fit. -/
theorem arrayList_refines_iff (calls : List (ListCall α)) :
    RunRefines perform ListStep Holds (newArrayList α) (newListing α) calls ↔
      EveryCall perform CapacityFits (newArrayList α) calls := by
  apply runRefines_iff
  · intro list listing call holds fits
    exact perform_refines holds fits
  · intro list listing call next holds step _
    exact capacityFits_of_step holds step
  · exact newArrayList_holds

/-- A capacity of 357913940 objects is given an array of one heap block. -/
theorem arrayList_not_refines :
    ¬ RunRefines perform ListStep Holds (newArrayList Unit) (newListing Unit)
      [.setCapacity (fun _ => true) 357913940] := by
  rintro ⟨next, step, -, -⟩
  have enough : (newListing Unit).contents.length ≤
      (357913940 : UInt32).toNat := Nat.zero_le _
  rw [perform, setCapacity_outside newArrayList_holds.1 (by decide) enough
    (by unfold RefusesObjects; decide) (by unfold SizeFits; decide)] at step
  cases step

end CLR_RT_HeapBlock_ArrayList

end Collections

end NanoClr
