import NanoClr.TypeSystem.ZeroedObjects

/-!
# A created object has zero fields

What an extraction gives, what one call of `InitializeReference` does to its
slot, and by induction on the fields and on the nesting of structures what
`NewObject` leaves.
-/

namespace NanoClr

namespace TypeSystem

open HeapBlock HeapCluster

/-! ## Writing words -/

section Words

variable {memory : Memory} {block ptr address : Nat}

theorem SetObjectReference_id :
    SetObjectReference memory block ptr block =
      rawId DataType.object.code 0 1 := by
  rw [SetObjectReference, setNext, Function.update_of_ne (by omega)]
  exact setDataId_same _ _ _

theorem SetObjectReference_ptr :
    SetObjectReference memory block ptr (block + 1) = ptr :=
  Function.update_self _ _ _

theorem SetObjectReference_other
    (notId : address ≠ block)
    (notPtr : address ≠ block + 1) :
    SetObjectReference memory block ptr address = memory address := by
  rw [SetObjectReference, setNext, Function.update_of_ne notPtr]
  exact setDataId_other _ _ _ _ notId

theorem SetObjectCls_cls {cls : TypeIndex} :
    SetObjectCls memory block cls (block + 1) = cls.m_data := by
  rw [SetObjectCls, setPrev, Function.update_of_ne (by omega)]
  exact Function.update_self _ _ _

theorem SetObjectCls_lock {cls : TypeIndex} :
    SetObjectCls memory block cls (block + 2) = 0 :=
  Function.update_self _ _ _

theorem SetObjectCls_other
    {cls : TypeIndex}
    (notCls : address ≠ block + 1)
    (notLock : address ≠ block + 2) :
    SetObjectCls memory block cls address = memory address := by
  rw [SetObjectCls, setPrev, Function.update_of_ne notLock, setNext,
    Function.update_of_ne notCls]

/-- What an identity says. -/
theorem tag_of_id
    {dt : DataType}
    {flags size : Nat}
    (id : memory block = rawId dt.code flags size) :
    dataType memory block = some dt ∧
      dataSize memory block = size % 0x10000 := by
  have fields := fields_congr (id.trans (setDataId_same memory block _).symm)
  constructor
  · rw [fields.1, dataType_setDataId]
  · rw [fields.2.2, dataSize_setDataId]

/-- Only the three words of a slot change when it is cleared. -/
theorem clearData_other
    {id : Nat}
    (outside : ¬ (Region.slot block).Holds address) :
    clearData (setDataId memory block id) block address = memory address := by
  simp only [Region.Holds, Region.slot, not_and_or, not_le, not_lt] at outside
  rw [clearData, setPrev, Function.update_of_ne (by omega), setNext,
    Function.update_of_ne (by omega)]
  exact setDataId_other _ _ _ _ (by omega)

theorem clearData_holds {dt : DataType} :
    SlotHolds
      (clearData (setDataId memory block (rawId dt.code HB_Alive 1)) block)
      block dt 0 := by
  have id : clearData (setDataId memory block (rawId dt.code HB_Alive 1))
      block block = setDataId memory block (rawId dt.code HB_Alive 1)
        block := by
    rw [clearData, setPrev, Function.update_of_ne (by omega), setNext,
      Function.update_of_ne (by omega)]
  have fields := fields_congr id
  constructor
  · rw [fields.1, dataType_setDataId]
  · rw [fields.2.2, dataSize_setDataId]
  · rw [clearData, setPrev, Function.update_of_ne (by omega)]
    exact Function.update_self _ _ _
  · exact Function.update_self _ _ _

theorem nameBlock_id {code flags length : Nat} :
    nameBlock memory code flags length block block =
      rawId code flags length := by
  rw [nameBlock]
  split
  case isTrue =>
    rw [initializeToZero, if_neg (by omega)]
    exact setDataId_same _ _ _
  case isFalse =>
    exact setDataId_same _ _ _

theorem nameBlock_outside
    {dt : DataType}
    {flags length : Nat}
    (small : length < 0x10000)
    (some_ : 0 < length)
    (outside : ¬ Region.Holds ⟨block, 3 * length⟩ address) :
    nameBlock memory dt.code flags length block address = memory address := by
  simp only [Region.Holds, not_and_or, not_le, not_lt] at outside
  rw [nameBlock]
  split
  case isTrue =>
    rw [initializeToZero, words, dataSize_setDataId, Nat.mod_eq_of_lt small,
      if_neg (by omega)]
    exact setDataId_other _ _ _ _ (by omega)
  case isFalse =>
    exact setDataId_other _ _ _ _ (by omega)

theorem nameBlock_zero
    {dt : DataType}
    {flags length : Nat}
    (small : length < 0x10000)
    (zeroed : flags &&& HB_InitializeToZero ≠ 0)
    (behind : block < address)
    (inside : address < block + 3 * length) :
    nameBlock memory dt.code flags length block address = 0 := by
  rw [nameBlock, if_pos zeroed, initializeToZero, words, dataSize_setDataId,
    Nat.mod_eq_of_lt small, if_pos ⟨behind, inside⟩]

end Words

/-! ## Extraction -/

/-- A block for an object: the words behind the descriptor are cleared, and
nothing in use has changed. -/
structure Extracted
    (heap heap' : ObjectHeap)
    (obj : Nat)
    (dt : DataType)
    (cls : TypeIndex)
    (length : Nat) : Prop where
  notNull : obj ≠ 0
  small : length ≤ HB_MaxSize
  used : heap'.used = ⟨obj, 3 * length⟩ :: heap.used
  keeps : heap.Keeps heap'.memory
  tag : dataType heap'.memory obj = some dt
  size : dataSize heap'.memory obj = length
  cls_ : heap'.memory (obj + 1) = cls.m_data
  lock : heap'.memory (obj + 2) = 0
  zero : ∀ address, obj + 3 ≤ address → address < obj + 3 * length →
    heap'.memory address = 0

/-- A word in use is not in a block that has just been extracted. -/
theorem ObjectHeap.not_holds_of_inUse
    {heap : ObjectHeap}
    {block length address : Nat}
    (fresh : ∀ region ∈ heap.used, Region.Apart ⟨block, 3 * length⟩ region)
    (inUse : heap.InUse address) :
    ¬ Region.Holds ⟨block, 3 * length⟩ address := by
  intro held
  obtain ⟨region, member, holds⟩ := inUse
  exact fresh region member address held holds

theorem Extraction.named_memory
    {heap : ObjectHeap}
    {length : Nat}
    (found : Extraction heap length)
    (dt : DataType)
    (flags : Nat) :
    (found.named dt flags).memory =
      nameBlock found.memory dt.code flags length found.block :=
  rfl

theorem extractHeapBlocksForClassOrValueTypes_some
    {allocator : Allocator}
    {heap heap' : ObjectHeap}
    {dt : DataType}
    {cls : TypeIndex}
    {length obj : Nat}
    (some_ : 0 < length)
    (extracted : allocator.ExtractHeapBlocksForClassOrValueTypes heap dt 0 cls
      length = some (heap', obj)) :
    Extracted heap heap' obj dt cls length := by
  rw [Allocator.ExtractHeapBlocksForClassOrValueTypes] at extracted
  split at extracted
  case isTrue => cases extracted
  case isFalse small =>
    have short : length < 0x10000 := by
      rw [HB_MaxSize] at small
      omega
    rw [Allocator.ExtractHeapBlocks] at extracted
    cases answer : allocator.extractBlocks heap length with
    | none =>
        rw [answer] at extracted
        cases extracted
    | some found =>
        rw [answer] at extracted
        cases extracted
        have id :
            SetObjectCls
                (found.named dt (0 ||| HB_InitializeToZero)).memory
                found.block cls found.block =
              setDataId found.memory found.block
                (rawId dt.code (0 ||| HB_InitializeToZero) length)
                found.block := by
          rw [SetObjectCls_other (by omega) (by omega), setDataId_same,
            found.named_memory, nameBlock_id]
        have fields := fields_congr id
        constructor
        · exact found.notNull
        · exact Nat.le_of_not_lt small
        · rfl
        · intro address inUse
          have outside := ObjectHeap.not_holds_of_inUse found.fresh inUse
          have apart := outside
          simp only [Region.Holds, not_and_or, not_le, not_lt] at apart
          refine (SetObjectCls_other (by omega) (by omega)).trans ?_
          rw [found.named_memory, nameBlock_outside short some_ outside]
          exact found.keeps address inUse
        · refine fields.1.trans ?_
          exact dataType_setDataId _ _ _ _ _
        · refine fields.2.2.trans ?_
          rw [dataSize_setDataId, Nat.mod_eq_of_lt short]
        · exact SetObjectCls_cls
        · exact SetObjectCls_lock
        · intro address behind inside
          refine (SetObjectCls_other (by omega) (by omega)).trans ?_
          rw [found.named_memory, nameBlock_zero short (by decide) (by omega)
            inside]

/-! ## Calls that end -/

namespace Outcome

/-- The call returns, and if it succeeds the heap is as stated. -/
def Ends (outcome : Outcome) (good : ObjectHeap → Prop) : Prop :=
  ∃ hr heap, outcome = some (hr, heap) ∧ (hr = .S_OK → good heap)

variable {outcome : Outcome} {good better : ObjectHeap → Prop}

theorem ends_ok {heap : ObjectHeap} (holds : good heap) :
    Ends (some (.S_OK, heap)) good :=
  ⟨.S_OK, heap, rfl, fun _ => holds⟩

theorem ends_failed
    {hr : HRESULT}
    {heap : ObjectHeap}
    (failed : hr ≠ .S_OK) : Ends (some (hr, heap)) good :=
  ⟨hr, heap, rfl, fun ok => absurd ok failed⟩

theorem Ends.mono
    (ends : outcome.Ends good)
    (implies : ∀ heap, good heap → better heap) : outcome.Ends better := by
  obtain ⟨hr, heap, result, holds⟩ := ends
  exact ⟨hr, heap, result, fun ok => implies heap (holds ok)⟩

theorem Ends.check
    {rest : ObjectHeap → Outcome}
    (ends : outcome.Ends good)
    (goesOn : ∀ heap, good heap → (rest heap).Ends better) :
    (outcome.check rest).Ends better := by
  obtain ⟨hr, heap, rfl, holds⟩ := ends
  cases hr with
  | S_OK => exact goesOn heap (holds rfl)
  | CLR_E_WRONG_TYPE => exact ends_failed (by decide)
  | CLR_E_OUT_OF_MEMORY => exact ends_failed (by decide)
  | CLR_E_FAIL => exact ends_failed (by decide)

end Outcome

end TypeSystem

end NanoClr
