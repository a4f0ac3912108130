import NanoClr.Heap.HeapCluster
import NanoClr.TypeSystem.ResolveLink

/-!
# Creating objects

`NewObject` extracts a block with a slot for every field of the class and of
its bases, and `InitializeReference` gives each slot the value that its field
starts with, from the last slot to the first.
-/

namespace NanoClr

namespace TypeSystem

open HeapBlock HeapCluster

/-! ## The heap -/

/-- Words of the memory that are in use. -/
structure Region where
  start : Nat
  length : Nat

namespace Region

/-- An address is in a region. -/
def Holds (region : Region) (address : Nat) : Prop :=
  region.start ≤ address ∧ address < region.start + region.length

/-- Two regions share no address. -/
def Apart (left right : Region) : Prop :=
  ∀ address, left.Holds address → ¬ right.Holds address

end Region

/-- The memory and the regions in use, which share no words. -/
structure ObjectHeap where
  memory : Memory
  used : List Region
  apart : used.Pairwise Region.Apart

namespace ObjectHeap

variable (heap : ObjectHeap)

/-- The address belongs to a region in use. -/
def InUse (address : Nat) : Prop :=
  ∃ region ∈ heap.used, region.Holds address

/-- A change of the memory leaves the words in use as they are. -/
def Keeps (memory : Memory) : Prop :=
  ∀ address, heap.InUse address → memory address = heap.memory address

/-- The heap with another memory. -/
def withMemory (memory : Memory) : ObjectHeap :=
  { heap with memory := memory }

end ObjectHeap

/-- A block that was taken out of a free list, after a collection if there
had to be one. -/
structure Extraction (heap : ObjectHeap) (length : Nat) where
  memory : Memory
  block : Nat
  notNull : block ≠ 0
  fresh : ∀ region ∈ heap.used, Region.Apart ⟨block, 3 * length⟩ region
  keeps : heap.Keeps memory

/-- A finalizer that was created and listed. -/
structure FinalizerCreation (heap : ObjectHeap) where
  memory : Memory
  keeps : heap.Keeps memory

/-- What the heap answers to the requests for memory. -/
structure Allocator where
  extractBlocks : (heap : ObjectHeap) → (length : Nat) →
    Option (Extraction heap length)
  createFinalizer : (heap : ObjectHeap) → (obj : Nat) → (cls : TypeIndex) →
    Option (FinalizerCreation heap)

/-- The heap after the block has got its identity. -/
def Extraction.named
    {heap : ObjectHeap}
    {length : Nat}
    (found : Extraction heap length)
    (dataType : DataType)
    (flags : Nat) : ObjectHeap where
  memory := nameBlock found.memory dataType.code flags length found.block
  used := ⟨found.block, 3 * length⟩ :: heap.used
  apart := List.pairwise_cons.mpr ⟨found.fresh, heap.apart⟩

/-- `SetObjectReference`: a block refers to an object. -/
def SetObjectReference (memory : Memory) (block ptr : Nat) : Memory :=
  setNext (setDataId memory block (rawId DataType.object.code 0 1)) block ptr

/-- `objectHeader.cls` and `objectHeader.lock`. -/
def SetObjectCls (memory : Memory) (obj : Nat) (cls : TypeIndex) : Memory :=
  setPrev (setNext memory obj cls.m_data) obj 0

namespace Allocator

variable (allocator : Allocator)

/-- `ExtractHeapBlocks`: a block, if there is one, with its identity. -/
def ExtractHeapBlocks
    (heap : ObjectHeap)
    (dataType : DataType)
    (flags length : Nat) : Option (ObjectHeap × Nat) :=
  (allocator.extractBlocks heap length).map fun found =>
    (found.named dataType flags, found.block)

/-- `ExtractHeapBlocksForClassOrValueTypes`: a block of zeros with the class of
its object. -/
def ExtractHeapBlocksForClassOrValueTypes
    (heap : ObjectHeap)
    (dataType : DataType)
    (flags : Nat)
    (cls : TypeIndex)
    (length : Nat) : Option (ObjectHeap × Nat) :=
  if HB_MaxSize < length then
    none
  else do
    let (heap, hb) ← allocator.ExtractHeapBlocks heap dataType
      (flags ||| HB_InitializeToZero) length
    some (heap.withMemory (SetObjectCls heap.memory hb cls), hb)

/-- `ExtractHeapBlocksForObjects`: a block that is not longer than a block can
be. -/
def ExtractHeapBlocksForObjects
    (heap : ObjectHeap)
    (dataType : DataType)
    (flags length : Nat) : Option (ObjectHeap × Nat) :=
  if HB_MaxSize < length then
    none
  else
    allocator.ExtractHeapBlocks heap dataType flags length

end Allocator

/-! ## A heap that grants blocks -/

/-- The first address behind all words in use, and behind the null pointer. -/
def ObjectHeap.behindAll (heap : ObjectHeap) : Nat :=
  heap.used.foldr
    (fun region address => max (region.start + region.length) address) 1

theorem ObjectHeap.inUse_lt_behindAll
    {heap : ObjectHeap}
    {address : Nat}
    (inUse : heap.InUse address) :
    address < heap.behindAll := by
  obtain ⟨region, member, holds⟩ := inUse
  rw [ObjectHeap.behindAll]
  generalize heap.used = used at member ⊢
  induction used with
  | nil => cases member
  | cons first rest inductionHypothesis =>
      rw [List.foldr_cons]
      rcases List.mem_cons.mp member with rfl | isLater
      · exact Nat.lt_of_lt_of_le holds.2 (Nat.le_max_left _ _)
      · exact Nat.lt_of_lt_of_le (inductionHypothesis isLater)
          (Nat.le_max_right _ _)

theorem ObjectHeap.behindAll_pos (heap : ObjectHeap) :
    0 < heap.behindAll := by
  rw [ObjectHeap.behindAll]
  induction heap.used with
  | nil => exact Nat.one_pos
  | cons first rest inductionHypothesis =>
      exact Nat.lt_of_lt_of_le inductionHypothesis (Nat.le_max_right _ _)

/-- A region behind all words in use has none of them. -/
theorem ObjectHeap.behindAll_apart
    (heap : ObjectHeap)
    (length : Nat) :
    ∀ region ∈ heap.used, Region.Apart ⟨heap.behindAll, length⟩ region := by
  intro region member address isNew holds
  have inUse : heap.InUse address := ⟨region, member, holds⟩
  exact Nat.not_lt.mpr isNew.1 (inUse_lt_behindAll inUse)

/-- Blocks come behind all that is in use, up to the end of the memory, and
finalizers take no words of it. -/
def Allocator.upTo (last : Nat) : Allocator where
  extractBlocks heap length :=
    if heap.behindAll + 3 * length ≤ last then
      some {
        memory := heap.memory
        block := heap.behindAll
        notNull := Nat.ne_of_gt heap.behindAll_pos
        fresh := heap.behindAll_apart (3 * length)
        keeps := fun _ _ => rfl }
    else none
  createFinalizer heap _ _ := some ⟨heap.memory, fun _ _ => rfl⟩

/-- A block is granted as long as there is room. -/
theorem Allocator.upTo_grants
    {last length : Nat}
    {heap : ObjectHeap}
    (room : heap.behindAll + 3 * length ≤ last)
    (dataType : DataType)
    (flags : Nat) :
    ((Allocator.upTo last).ExtractHeapBlocks heap dataType flags length).map
        Prod.snd = some heap.behindAll := by
  simp [ExtractHeapBlocks, Allocator.upTo, room]

/-! ## Results -/

/-- The result of a call and the heap, or nothing when the recursion has not
ended. -/
abbrev Outcome := Option (HRESULT × ObjectHeap)

/-- `NANOCLR_CHECK_HRESULT`. -/
def Outcome.check
    (outcome : Outcome)
    (rest : ObjectHeap → Outcome) : Outcome :=
  match outcome with
  | some (.S_OK, heap) => rest heap
  | failed => failed

/-- `CLR_RT_HeapBlock_Finalizer::CreateInstance`. -/
def Allocator.CreateFinalizer
    (allocator : Allocator)
    (heap : ObjectHeap)
    (obj : Nat)
    (cls : TypeIndex) : Outcome :=
  match allocator.createFinalizer heap obj cls with
  | none => some (.CLR_E_OUT_OF_MEMORY, heap)
  | some creation => some (.S_OK, heap.withMemory creation.memory)

namespace FieldHierarchy

variable (hierarchy : FieldHierarchy)

/-! ## `InitializeReference` -/

/-- The tag of a slot that holds no structure, with its data cleared. -/
def initializeSlot
    (heap : ObjectHeap)
    (ref : Nat)
    (dt : DataType) : Outcome :=
  some (.S_OK, heap.withMemory
    (clearData (setDataId heap.memory ref (rawId dt.code HB_Alive 1)) ref))

/-- `InitializeReference`: a slot gets the value that its field starts with,
which is a new object for a structure. -/
def InitializeReference
    (NewObject : ObjectHeap → Nat → TypeIndex → Outcome)
    (heap : ObjectHeap)
    (ref : Nat)
    (target : FieldIndex) : Outcome :=
  match hierarchy.signature target with
  | none => some (.CLR_E_WRONG_TYPE, heap)
  | some res =>
    if 0 < res.m_levels then
      initializeSlot heap ref .object
    else if res.m_dt = .valueType then
      if (hierarchy.m_target res.m_cls).semantics = .Enum then
        initializeSlot heap ref (hierarchy.m_target res.m_cls).dataType
      else
        NewObject heap ref res.m_cls
    else if c_Reference res.m_dt then
      initializeSlot heap ref .object
    else
      initializeSlot heap ref res.m_dt

/-! ## `NewObject` -/

/-- `SwitchToParent` until there are fields. -/
def switchToParents
    (instSub : TypeIndex)
    (clsFields : Nat)
    (target : Option FieldIndex) :
    Option (TypeIndex × Nat × Option FieldIndex) :=
  if clsFields = 0 then
    match _h : (hierarchy.m_target instSub).extends_ with
    | some parent =>
        switchToParents parent
          (hierarchy.m_target parent).iFields_Num.toNat none
    | none => none
  else
    some (instSub, clsFields, target)
termination_by hierarchy.depth instSub
decreasing_by
  exact hierarchy.depth_extends _h

/-- `GetFieldDef`, or the record that has been reached. -/
def fieldDef
    (instSub : TypeIndex)
    (clsFields : Nat) : Option FieldIndex → FieldIndex
  | some target => target
  | none => hierarchy.ownField instSub clsFields

/-- The loop over the slots, from the last one to the first. -/
def initializeFields
    (initialize_ : ObjectHeap → Nat → FieldIndex → Outcome)
    (obj : Nat) :
    Nat → TypeIndex → Nat → Option FieldIndex → ObjectHeap → Outcome
  | 0, _, _, _, heap => some (.S_OK, heap)
  | slot + 1, instSub, clsFields, target, heap =>
      match hierarchy.switchToParents instSub clsFields target with
      | none => some (.CLR_E_FAIL, heap)
      | some (instSub, clsFields, target) =>
          let target := hierarchy.fieldDef instSub clsFields target
          let target := { target with field := target.field - 1 }
          Outcome.check (initialize_ heap (obj + 3 * (slot + 1)) target)
            (initializeFields initialize_ obj slot instSub (clsFields - 1)
              (some target))

/-- An instance of a class or of a structure. -/
def createInstance
    (allocator : Allocator)
    (initialize_ : ObjectHeap → Nat → FieldIndex → Outcome)
    (heap : ObjectHeap)
    (reference : Nat)
    (dt : DataType)
    (inst : TypeIndex) : Outcome :=
  let totFields := hierarchy.m_totalFields inst + HB_Object_Fields_Offset
  match allocator.ExtractHeapBlocksForClassOrValueTypes heap dt 0 inst
      totFields with
  | none => some (.CLR_E_OUT_OF_MEMORY, heap)
  | some (heap, obj) =>
      let heap :=
        heap.withMemory (SetObjectReference heap.memory reference obj)
      let heap := heap.withMemory (SetObjectCls heap.memory obj inst)
      Outcome.check
        (hierarchy.initializeFields initialize_ obj (totFields - 1) inst
          (hierarchy.m_target inst).iFields_Num.toNat none heap)
        fun heap =>
          if hierarchy.HasFinalizer inst then
            allocator.CreateFinalizer heap (heap.memory (reference + 1)) inst
          else
            some (.S_OK, heap)

/-- `NewObject` with a bound on the depth of the structures. -/
def newObject (allocator : Allocator) :
    Nat → ObjectHeap → Nat → TypeIndex → Outcome
  | 0, _, _, _ => none
  | nested + 1, heap, reference, inst =>
      let heap := heap.withMemory (SetObjectReference heap.memory reference 0)
      let dt := (hierarchy.m_target inst).dataType
      if inst = hierarchy.m_Array then
        some (.CLR_E_WRONG_TYPE, heap)
      else if c_Reference dt = false then
        some (.S_OK, heap.withMemory
          (setDataId heap.memory reference (rawId dt.code 0 1)))
      else
        match dt with
        | .string => some (.S_OK, heap)
        | .weakClass =>
            match allocator.ExtractHeapBlocksForObjects heap .weakClass
                HB_InitializeToZero weakReferenceSize with
            | none => some (.CLR_E_OUT_OF_MEMORY, heap)
            | some (heap, weakref) =>
                some (.S_OK, heap.withMemory
                  (SetObjectReference heap.memory reference weakref))
        | .classType | .valueType =>
            hierarchy.createInstance allocator
              (hierarchy.InitializeReference
                (newObject allocator nested))
              heap reference dt inst
        | _ => some (.CLR_E_WRONG_TYPE, heap)

/-- `NewObject`; the structures in an object are not nested deeper than the
hierarchy's order says. -/
def NewObject
    (allocator : Allocator)
    (heap : ObjectHeap)
    (reference : Nat)
    (inst : TypeIndex) : Outcome :=
  hierarchy.newObject allocator (hierarchy.nesting inst + 1) heap reference
    inst

end FieldHierarchy

end TypeSystem

end NanoClr
