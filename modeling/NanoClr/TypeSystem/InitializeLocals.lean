import NanoClr.TypeSystem.MatchSignature
import NanoClr.TypeSystem.NewObject

/-!
# The first values of locals

`InitializeReference` reads the type of a slot with the parser of signatures.
`InitializeLocals` reads the types of all locals of a method on its own, and
allocates the structures among them.
-/

namespace NanoClr

namespace TypeSystem

open HeapBlock

/-- A type of the metadata as the hierarchy knows it. -/
def CLR_RT_TypeDef_Index.typeIndex (cls : CLR_RT_TypeDef_Index) : TypeIndex :=
  ⟨cls.Assembly, cls.Type⟩

/-! ## `InitializeReference` -/

namespace FieldHierarchy

variable (hierarchy : FieldHierarchy)

/-- `InitializeReference` behind the parser. -/
def initializeElement
    (NewObject : ObjectHeap → Nat → TypeIndex → Outcome)
    (heap : ObjectHeap)
    (ref : Nat)
    (res : SignatureElement) : Outcome :=
  if 0 < res.m_levels then
    initializeSlot heap ref .object
  else if res.m_dt = .valueType then
    if (hierarchy.m_target res.m_cls).semantics = .Enum then
      initializeSlot heap ref (hierarchy.m_target res.m_cls).dataType
    else
      NewObject heap ref res.m_cls
  else if c_Reference res.m_dt then
    initializeSlot heap ref .object
  else
    initializeSlot heap ref res.m_dt

/-- The fields of objects are initialized by the element of their
signature. -/
theorem initializeReference_eq
    (NewObject : ObjectHeap → Nat → TypeIndex → Outcome)
    (heap : ObjectHeap)
    (ref : Nat)
    (target : FieldIndex) :
    hierarchy.InitializeReference NewObject heap ref target =
      match hierarchy.signature target with
      | none => some (.CLR_E_WRONG_TYPE, heap)
      | some res => hierarchy.initializeElement NewObject heap ref res := by
  rw [InitializeReference]
  cases hierarchy.signature target with
  | none => rfl
  | some res => rfl

end FieldHierarchy

section Initialization

variable (hierarchy : FieldHierarchy) (allocator : Allocator)
  (typeSystem : CLR_RT_TypeSystem) (assm : CLR_RT_Assembly)

/-- `InitializeReference` of a slot with the type that a parser is at. -/
def initializeReference
    (heap : ObjectHeap)
    (ref : Nat)
    (sig : List UInt8) : Outcome := do
  match ← advance typeSystem assm sig with
  | none => some (.CLR_E_WRONG_TYPE, heap)
  | some (res, _) =>
      let m_dt ← DataType.ofCode res.m_dt.toNat
      hierarchy.initializeElement (hierarchy.NewObject allocator) heap ref
        { m_dt, m_levels := res.m_levels, m_cls := res.m_cls.typeIndex }

/-! ## `InitializeLocals` -/

/-- The modifier of a local whose object is not moved. -/
def DATATYPE_TYPE_PINNED : UInt8 := 0x45

/-- What the inner loop finds out about a local. -/
structure LocalType where
  dt : UInt8
  cls : CLR_RT_TypeDef_Index
  levels : Nat
  pinned : Bool

/-- The class of a row of `c_CLR_RT_DataTypeLookup`, where there is one; behind
the last data type the table is left. -/
def lookupClass (dt : UInt8) : Option (Option CLR_RT_TypeDef_Index) :=
  if dt = DATATYPE_VOID then some none
  else dataTypeClass typeSystem.g_CLR_RT_WellKnownTypes dt

/-- The class that a token of a local names, and the levels of arrays in
it. -/
def localClass :
    TypeTable → UInt32 → Option (Option (CLR_RT_TypeDef_Index × Nat))
  | .TBL_TypeSpec, idx => do
      let sub ← typeSpecElement typeSystem assm assm.typeSpecs.length idx
      some (sub.map fun res => (res.m_cls, res.m_levels))
  | .TBL_TypeRef, idx => do
      let m_target ← assm.m_pCrossReference_TypeRef[idx.toNat]?
      some (some (m_target, 0))
  | .TBL_TypeDef, idx => some (some (⟨setIndex assm.m_idx idx⟩, 0))
  | .TBL_Max, _ => some none

/-- The loop over the bytes of a local, `none` inside where the type is
wrong. -/
def localType (levels : Nat) (pinned : Bool) :
    List UInt8 → Option (Option (LocalType × List UInt8))
  | [] => none
  | dt :: sig =>
      if dt = DATATYPE_TYPE_PINNED then
        localType levels true sig
      else if dt = DATATYPE_SZARRAY ∨ dt = DATATYPE_BYREF then
        localType (levels + 1) pinned sig
      else if dt = DATATYPE_CLASS ∨ dt = DATATYPE_VALUETYPE then do
        let ((table, idx), sig) ← CLR_TkFromStream sig
        let found ← localClass typeSystem assm table idx
        some (found.map fun (cls, subLevels) =>
          ({ dt, cls, levels := levels + subLevels, pinned }, sig))
      else do
        let cls2 ← lookupClass typeSystem dt
        some (cls2.map fun cls => ({ dt, cls, levels, pinned }, sig))

/-- The locals that are left get an identity, whatever their data. -/
def makeConsistent (memory : Memory) (ptr : Nat) : Nat → Memory
  | 0 => memory
  | count + 1 =>
      makeConsistent (setDataId memory ptr (rawId DataType.i4.code 0 1))
        (ptr + 3) count

/-- The local is a structure with a block of its own. -/
def LocalType.allocates (local_ : LocalType) : Bool :=
  local_.levels = 0 ∧ local_.dt = DATATYPE_VALUETYPE ∧
    (hierarchy.m_target local_.cls.typeIndex).dataType = .valueType

/-- The heap before a local is initialized: all locals that are left are
consistent when there is the first allocation. -/
def prepareLocals
    (fZeroed : Bool)
    (heap : ObjectHeap)
    (locals count : Nat)
    (local_ : LocalType) : ObjectHeap :=
  if local_.allocates hierarchy ∧ fZeroed = false then
    heap.withMemory (makeConsistent heap.memory locals count)
  else
    heap

/-- The branches behind `done`. -/
def initializeLocal
    (heap : ObjectHeap)
    (ref : Nat)
    (local_ : LocalType) : Outcome :=
  if 0 < local_.levels then
    let memory := SetObjectReference heap.memory ref 0
    some (.S_OK, heap.withMemory
      (if local_.pinned then setFlags memory ref HB_Pinned else memory))
  else if local_.dt = DATATYPE_VALUETYPE then
    let dataType := (hierarchy.m_target local_.cls.typeIndex).dataType
    if dataType ≠ .valueType then
      FieldHierarchy.initializeSlot heap ref dataType
    else
      hierarchy.NewObject allocator heap ref local_.cls.typeIndex
  else do
    let dt ← DataType.ofCode local_.dt.toNat
    FieldHierarchy.initializeSlot heap ref
      (if c_Reference dt then .object else dt)

/-- The loop over so many locals, with the bytes that are left. -/
def initializeLocalsFrom
    (fZeroed : Bool)
    (heap : ObjectHeap)
    (locals : Nat) :
    Nat → List UInt8 → Option (HRESULT × ObjectHeap × List UInt8)
  | 0, sig => some (.S_OK, heap, sig)
  | count + 1, sig => do
      match ← localType typeSystem assm 0 false sig with
      | none => some (.CLR_E_WRONG_TYPE, heap, sig)
      | some (local_, sig) =>
          let heap :=
            prepareLocals hierarchy fZeroed heap locals (count + 1) local_
          let (hr, heap) ← initializeLocal hierarchy allocator heap locals
            local_
          if hr = .S_OK then
            initializeLocalsFrom (fZeroed || local_.allocates hierarchy) heap
              (locals + 3) count sig
          else
            some (hr, heap, sig)

/-- `InitializeLocals` of a method whose record has this place of its
signature of locals and this number of them. -/
def InitializeLocals
    (heap : ObjectHeap)
    (locals : Nat)
    (mdLocals : Nat)
    (numLocals : UInt8) : Option (HRESULT × ObjectHeap × List UInt8) :=
  initializeLocalsFrom hierarchy allocator typeSystem assm false heap locals
    numLocals.toNat (assm.signatures.drop mdLocals)

end Initialization

end TypeSystem

end NanoClr
