import NanoClr.Arrays.CreateArray
import NanoClr.Library.Splice

/-!
# Elements of arrays

How the elements of an array are read and written: through the address of one,
which is computed with 32 bits.
-/

namespace NanoClr

namespace Arrays

/-- What a call comes to: it succeeds, it fails, or it touches memory outside
an array. -/
inductive CallResult (ρ : Type) where
  | S_OK (result : ρ)
  | failed (hr : HResult)
  | outside
deriving DecidableEq

/-- A call that gives something else back. -/
def CallResult.map {ρ ρ' : Type} (give : ρ → ρ') :
    CallResult ρ → CallResult ρ'
  | .S_OK result => .S_OK (give result)
  | .failed hr => .failed hr
  | .outside => .outside

theorem CallResult.map_ne_failed
    {ρ ρ' : Type}
    {give : ρ → ρ'}
    {result : CallResult ρ}
    {hr : HResult}
    (notFailed : result ≠ .failed hr) :
    result.map give ≠ .failed hr := by
  cases result with
  | S_OK value => simp [map]
  | failed other => simpa [map] using notFailed
  | outside => simp [map]

variable {Element : Type}

/-- The address of an element, from the first element on. -/
def GetElement
    (array : CLR_RT_HeapBlock_Array Element)
    (index : UInt32) : UInt32 :=
  array.m_sizeOfElement.toUInt32 * index

/-- The place of the first one of consecutive elements, unless some of them lie
outside the array.  No element is looked for if there is none. -/
def placeOf
    (array : CLR_RT_HeapBlock_Array Element)
    (index : UInt32)
    (length : Nat) : Option Nat :=
  let address := (GetElement array index).toNat
  let size := array.m_sizeOfElement.toNat
  if length = 0 then
    some 0
  else if address % size = 0 ∧
      address / size + length ≤ array.elements.length then
    some (address / size)
  else
    none

/-- Reads consecutive elements. -/
def readElements
    (array : CLR_RT_HeapBlock_Array Element)
    (index : UInt32)
    (length : Nat) : Option (List Element) :=
  (placeOf array index length).map fun place =>
    (array.elements.drop place).take length

/-- Writes consecutive elements. -/
def writeElements
    (array : CLR_RT_HeapBlock_Array Element)
    (index : UInt32)
    (run : List Element) : Option (CLR_RT_HeapBlock_Array Element) :=
  (placeOf array index run.length).map fun place =>
    { array with elements := splice array.elements place run }

/-- Reads one element. -/
def readElement
    (array : CLR_RT_HeapBlock_Array Element)
    (index : UInt32) : Option Element :=
  (placeOf array index 1).bind fun place => array.elements[place]?

/-! ## Elements inside the array -/

section Inside

variable {array : CLR_RT_HeapBlock_Array Element} {index : Nat}

/-- The addresses of all elements fit in 32 bits. -/
structure CLR_RT_HeapBlock_Array.Addressed
    (array : CLR_RT_HeapBlock_Array Element) : Prop where
  sized : 0 < array.m_sizeOfElement.toNat
  small : array.m_sizeOfElement.toNat * array.elements.length < 2 ^ 32

theorem getElement_toNat
    (addressed : array.Addressed)
    (inside : index ≤ array.elements.length) :
    (GetElement array (UInt32.ofNat index)).toNat =
      array.m_sizeOfElement.toNat * index := by
  have below : array.m_sizeOfElement.toNat * index < 2 ^ 32 :=
    Nat.lt_of_le_of_lt (Nat.mul_le_mul_left _ inside) addressed.small
  have few : index < 2 ^ 32 :=
    Nat.lt_of_le_of_lt (Nat.le_mul_of_pos_left index addressed.sized) below
  rw [GetElement, UInt32.toNat_mul, UInt8.toNat_toUInt32,
    UInt32.toNat_ofNat_of_lt' few, Nat.mod_eq_of_lt below]

/-- Elements inside the array are where their index says. -/
theorem placeOf_inside
    {length : Nat}
    (addressed : array.Addressed)
    (some_ : 0 < length)
    (inside : index + length ≤ array.elements.length) :
    placeOf array (UInt32.ofNat index) length = some index := by
  have address := getElement_toNat addressed
    (show index ≤ array.elements.length by omega)
  unfold placeOf
  dsimp only
  rw [address, Nat.mul_mod_right, Nat.mul_div_cancel_left _ addressed.sized,
    if_neg (by omega), if_pos ⟨rfl, inside⟩]

theorem readElements_inside
    {length : Nat}
    (addressed : array.Addressed)
    (inside : index + length ≤ array.elements.length) :
    readElements array (UInt32.ofNat index) length =
      some ((array.elements.drop index).take length) := by
  rcases Nat.eq_zero_or_pos length with isZero | some_
  · rw [isZero, readElements, placeOf, if_pos rfl]
    simp
  · rw [readElements, placeOf_inside addressed some_ inside, Option.map_some]

theorem writeElements_inside
    {run : List Element}
    (addressed : array.Addressed)
    (inside : index + run.length ≤ array.elements.length) :
    writeElements array (UInt32.ofNat index) run =
      some { array with elements := splice array.elements index run } := by
  rcases Nat.eq_zero_or_pos run.length with isZero | some_
  · rw [List.eq_nil_of_length_eq_zero isZero, writeElements, placeOf,
      if_pos List.length_nil]
    simp
  · rw [writeElements, placeOf_inside addressed some_ inside, Option.map_some]

theorem readElement_inside
    (addressed : array.Addressed)
    (inside : index < array.elements.length) :
    readElement array (UInt32.ofNat index) = array.elements[index]? := by
  rw [readElement, placeOf_inside addressed Nat.one_pos inside,
    Option.bind_some]

variable {before covered after run : List Element} {value : Element}

/-- An element behind some others. -/
theorem readElement_append
    (addressed : array.Addressed)
    (elements : array.elements = before ++ value :: after) :
    readElement array (UInt32.ofNat before.length) = some value := by
  rw [readElement_inside addressed (by rw [elements]; simp), elements,
    List.getElem?_append_right (Nat.le_refl _), Nat.sub_self,
    List.getElem?_cons_zero]

/-- Writing over the elements between some others. -/
theorem writeElements_append
    (addressed : array.Addressed)
    (elements : array.elements = before ++ covered ++ after)
    (sameLength : run.length = covered.length) :
    writeElements array (UInt32.ofNat before.length) run =
      some { array with elements := before ++ run ++ after } := by
  rw [writeElements_inside addressed (by rw [elements, sameLength]; simp),
    elements, splice_append rfl sameLength]

/-- Writing over one element. -/
theorem writeElement_append
    {covered value : Element}
    (addressed : array.Addressed)
    (elements : array.elements = before ++ covered :: after) :
    writeElements array (UInt32.ofNat before.length) [value] =
      some { array with elements := before ++ value :: after } := by
  have wrote := @writeElements_append Element array before [covered] after
    [value] addressed (by rw [elements]; simp) rfl
  rw [wrote]
  simp

/-- Elements of the same number fit as well. -/
theorem CLR_RT_HeapBlock_Array.Addressed.withElements
    {elements : List Element}
    (addressed : array.Addressed)
    (sameLength : elements.length = array.elements.length) :
    CLR_RT_HeapBlock_Array.Addressed { array with elements := elements } where
  sized := addressed.sized
  small := sameLength ▸ addressed.small

end Inside

end Arrays

end NanoClr
