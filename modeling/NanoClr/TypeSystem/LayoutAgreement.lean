import NanoClr.TypeSystem.ObjectLayout

/-!
# Classes whose fields can be counted

The layout of a hierarchy and the creation of its objects agree exactly when
no class has more fields, with those of its bases, than 16 bits can count.
-/

namespace NanoClr

namespace TypeSystem

open HeapBlock HeapCluster

namespace FieldHierarchy

variable {hierarchy : FieldHierarchy} {allocator : Allocator}
  {heap heap' : ObjectHeap} {inst : TypeIndex} {obj reference : Nat}
  {initialize_ : ObjectHeap → Nat → FieldIndex → Outcome}

theorem instance_reference
    {dt : DataType}
    (instance_ : dt = .classType ∨ dt = .valueType) :
    ¬ c_Reference dt = false := by
  cases instance_ with
  | inl isClass =>
      rw [isClass]
      decide
  | inr isValue =>
      rw [isValue]
      decide

/-! ## An instance before its fields are initialized -/

/-- The block has its descriptor and is referred to; its slots are cleared. -/
structure Prepared
    (hierarchy : FieldHierarchy)
    (heap heap' : ObjectHeap)
    (reference obj : Nat)
    (inst : TypeIndex) : Prop where
  used : heap'.used = hierarchy.objectRegion obj inst :: heap.used
  keeps : ∀ address, heap.InUse address → address ≠ reference →
    address ≠ reference + 1 → heap'.memory address = heap.memory address
  id : heap'.memory reference = rawId DataType.object.code 0 1
  ptr : heap'.memory (reference + 1) = obj
  header : hierarchy.InstanceHeader heap'.memory obj inst
  cleared : ∀ address, obj + 3 ≤ address →
    (hierarchy.objectRegion obj inst).Holds address → heap'.memory address = 0

theorem Prepared.apart
    (prepared : hierarchy.Prepared heap heap' reference obj inst)
    {address : Nat}
    (inUse : heap.InUse address) :
    ¬ (hierarchy.objectRegion obj inst).Holds address := by
  have apart := heap'.apart
  rw [prepared.used, List.pairwise_cons] at apart
  exact ObjectHeap.not_holds_of_inUse apart.1 inUse

theorem prepared_of_extracted
    (extracted : Extracted heap heap' obj (hierarchy.m_target inst).dataType
      inst (hierarchy.m_totalFields inst + 1))
    (inUse : heap.SlotInUse reference) :
    hierarchy.Prepared heap
      (heap'.withMemory
        (SetObjectCls (SetObjectReference heap'.memory reference obj) obj inst))
      reference obj inst := by
  have outside : ∀ address, heap.InUse address →
      address < obj ∨ obj + 3 * (hierarchy.m_totalFields inst + 1) ≤ address := by
    intro address used
    have apart := heap'.apart
    rw [extracted.used, List.pairwise_cons] at apart
    have free := ObjectHeap.not_holds_of_inUse apart.1 used
    simp only [Region.Holds, not_and_or, not_le, not_lt] at free
    exact free
  have first := outside _ (inUse _ Region.holds_slot_start)
  have second := outside _ (inUse _ (Region.holds_slot (show 1 < 3 by decide)))
  have inside : ∀ address, obj ≤ address →
      address < obj + 3 * (hierarchy.m_totalFields inst + 1) →
        address ≠ obj + 1 → address ≠ obj + 2 →
          SetObjectCls (SetObjectReference heap'.memory reference obj) obj inst
            address = heap'.memory address := by
    intro address above below notCls notLock
    rw [SetObjectCls_other notCls notLock,
      SetObjectReference_other (by omega) (by omega)]
  have fields := fields_congr
    (inside obj (Nat.le_refl _) (by omega) (by omega) (by omega))
  constructor
  · exact extracted.used
  · intro address used notId notPtr
    have free := outside address used
    refine (SetObjectCls_other (by omega) (by omega)).trans ?_
    rw [SetObjectReference_other notId notPtr]
    exact extracted.keeps address used
  · refine (SetObjectCls_other (by omega) (by omega)).trans ?_
    exact SetObjectReference_id
  · refine (SetObjectCls_other (by omega) (by omega)).trans ?_
    exact SetObjectReference_ptr
  · constructor
    · exact extracted.notNull
    · exact fields.1.trans extracted.tag
    · exact fields.2.2.trans extracted.size
    · exact SetObjectCls_cls
    · exact SetObjectCls_lock
  · intro address behind held
    refine (inside address (by omega) held.2 (by omega) (by omega)).trans ?_
    exact extracted.zero address behind held.2

/-! ## An instance with its fields -/

section Creation

variable (fits : ∀ cls, hierarchy.Loaded cls →
  (hierarchy.declaredFields cls).length < 0x10000)

include fits in
/-- The fields have been initialized, and there may be a finalizer. -/
theorem creates_of_filled
    {heap₁ heap₂ : ObjectHeap}
    {memory : Memory}
    {inner : List Region}
    (instance_ : (hierarchy.m_target inst).dataType = .classType ∨
      (hierarchy.m_target inst).dataType = .valueType)
    (loaded : hierarchy.Loaded inst)
    (inUse : heap.SlotInUse reference)
    (prepared : hierarchy.Prepared heap heap₁ reference obj inst)
    (filled : hierarchy.Filled heap₁ heap₂ obj
      (hierarchy.declaredFields inst) inner)
    (keeps : heap₂.Keeps memory) :
    hierarchy.Creates heap (heap₂.withMemory memory) reference inst
      (inner ++ [hierarchy.objectRegion obj inst]) := by
  have used₁ : ∀ {address}, heap.InUse address → heap₁.InUse address := by
    intro address used
    exact @ObjectHeap.inUse_append heap heap₁ [_] address prepared.used used
  have used₂ : ∀ {address}, heap₁.InUse address → heap₂.InUse address := by
    intro address used
    exact ObjectHeap.inUse_append filled.used used
  have kept : ∀ {address}, heap.InUse address →
      memory address = heap₁.memory address := by
    intro address used
    rw [keeps address (used₂ (used₁ used))]
    apply filled.keeps address (used₁ used)
    intro field declared holds
    exact prepared.apart used
      (slotOf_inside loaded (fits _ loaded) declared holds).2
  have held : ∀ {address},
      (hierarchy.objectRegion obj inst).Holds address →
        heap₁.InUse address := by
    intro address holds
    refine ⟨_, ?_, holds⟩
    rw [prepared.used]
    exact List.mem_cons_self
  have tags := tag_of_id
    ((kept (inUse _ Region.holds_slot_start)).trans prepared.id)
  have ptr : memory (reference + 1) = obj := by
    rw [kept (inUse _ (Region.holds_slot (by decide)))]
    exact prepared.ptr
  constructor
  · show heap₂.used = _
    rw [filled.used, prepared.used, List.append_assoc, List.singleton_append]
  · intro address used notId notPtr
    exact (kept used).trans (prepared.keeps address used notId notPtr)
  · intro basic
    exact absurd basic (instance_reference instance_)
  · intro _
    refine ⟨tags.1, tags.2, ?_⟩
    · show hierarchy.ZeroInstance memory (memory (reference + 1)) inst _
      rw [ptr]
      constructor
      · apply prepared.header.unchanged
        intro address holds
        rw [keeps address (used₂ (held (header_inside holds)))]
        apply filled.keeps address (held (header_inside holds))
        intro field declared inSlot
        have behind :=
          (slotOf_inside loaded (fits _ loaded) declared inSlot).1
        have before := holds.2
        simp only [Region.slot] at before
        omega
      · refine ⟨inner, rfl, filled.zero.unchanged fits ?_ ?_⟩
        · intro field declared address holds
          exact keeps address (used₂ (held
            (slotOf_inside loaded (fits _ loaded) declared holds).2))
        · intro region member address holds
          apply keeps address
          refine ⟨region, ?_, holds⟩
          rw [filled.used]
          exact List.mem_append_left _ member

include fits in
/-- An object of a class, or a structure. -/
theorem createInstance_ends
    (instance_ : (hierarchy.m_target inst).dataType = .classType ∨
      (hierarchy.m_target inst).dataType = .valueType)
    (initialized : ∀ heap slot field,
      field ∈ hierarchy.declaredFields inst →
        heap.SlotInUse slot → heap.memory (slot + 2) = 0 →
          (initialize_ heap slot field).Ends fun heap' =>
            ∃ regions,
              hierarchy.SlotInitialized heap heap' slot field regions)
    (loaded : hierarchy.Loaded inst)
    (inUse : heap.SlotInUse reference) :
    (hierarchy.createInstance allocator initialize_ heap reference
        (hierarchy.m_target inst).dataType inst).Ends fun heap' =>
      ∃ regions, hierarchy.Creates heap heap' reference inst regions := by
  rw [createInstance]
  simp only [HB_Object_Fields_Offset, Nat.add_sub_cancel]
  split
  case h_1 => exact Outcome.ends_failed (by decide)
  case h_2 heap' obj found =>
    have prepared := prepared_of_extracted
      (extractHeapBlocksForClassOrValueTypes_some (by omega) found) inUse
    rw [initializeFields_eq loaded (fits _ loaded)]
    apply (initializeDeclared_ends fits initialized loaded
      (prepared.used ▸ List.mem_cons_self) ?_).check
    · intro heap₂ ⟨inner, filled⟩
      split
      case isTrue =>
        rw [Allocator.CreateFinalizer]
        split
        case h_1 => exact Outcome.ends_failed (by decide)
        case h_2 creation _ =>
          exact Outcome.ends_ok ⟨_, creates_of_filled fits instance_ loaded
            inUse prepared filled creation.keeps⟩
      case isFalse =>
        exact Outcome.ends_ok ⟨_, creates_of_filled fits instance_ loaded inUse
          prepared filled fun _ _ => rfl⟩
    · intro field declared
      have high : (Region.slot (hierarchy.slotOf obj field)).Holds
          (hierarchy.slotOf obj field + 2) := Region.holds_slot (by decide)
      have inside := slotOf_inside loaded (fits _ loaded) declared high
      exact prepared.cleared _ inside.1 inside.2

/-- A reference that was cleared first. -/
theorem Creates.afterClear
    {regions : List Region}
    (creates : hierarchy.Creates
      (heap.withMemory (SetObjectReference heap.memory reference 0)) heap'
      reference inst regions) :
    hierarchy.Creates heap heap' reference inst regions where
  used := creates.used
  keeps := by
    intro address used notId notPtr
    rw [creates.keeps address used notId notPtr]
    exact SetObjectReference_other notId notPtr
  basic := creates.basic
  instance_ := creates.instance_

theorem extractHeapBlocksForObjects_some
    {dt : DataType}
    {flags length : Nat}
    (some_ : 0 < length)
    (extracted : allocator.ExtractHeapBlocksForObjects heap dt flags length =
      some (heap', obj)) :
    heap'.used = ⟨obj, 3 * length⟩ :: heap.used ∧
      heap.Keeps heap'.memory := by
  rw [Allocator.ExtractHeapBlocksForObjects] at extracted
  split at extracted
  case isTrue => cases extracted
  case isFalse small =>
    have short : length < 0x10000 := by
      rw [HB_MaxSize] at small
      omega
    rw [Allocator.ExtractHeapBlocks] at extracted
    cases answer : allocator.extractBlocks heap length with
    | none =>
        rw [answer] at extracted
        cases extracted
    | some found =>
        rw [answer] at extracted
        cases extracted
        refine ⟨rfl, ?_⟩
        intro address used
        rw [found.named_memory, nameBlock_outside short some_
          (ObjectHeap.not_holds_of_inUse found.fresh used)]
        exact found.keeps address used

include fits in
/-- `NewObject` returns, and what it creates has zero fields; the induction is
on the nesting of structures. -/
theorem newObject_ends
    {nested : Nat}
    (loaded : hierarchy.Loaded inst)
    (deep : hierarchy.nesting inst < nested)
    (inUse : heap.SlotInUse reference) :
    (hierarchy.newObject allocator nested heap reference inst).Ends
      fun heap' =>
        ∃ regions, hierarchy.Creates heap heap' reference inst regions := by
  induction nested generalizing heap reference inst with
  | zero => omega
  | succ nested inductionHypothesis =>
      rw [newObject]
      split
      case isTrue => exact Outcome.ends_failed (by decide)
      case isFalse =>
        split
        case isTrue basic =>
          apply Outcome.ends_ok
          refine ⟨[], Creates.afterClear ⟨rfl, ?_, ?_, ?_⟩⟩
          · intro address _ notId _
            exact setDataId_other _ _ _ _ notId
          · intro _
            have tags := tag_of_id (setDataId_same
              (SetObjectReference heap.memory reference 0) reference
              (rawId (hierarchy.m_target inst).dataType.code 0 1))
            refine ⟨rfl, tags.1, tags.2, ?_⟩
            refine (setDataId_other _ _ _ _ (by omega)).trans ?_
            exact SetObjectReference_ptr
          · intro instance_
            exact absurd basic (instance_reference instance_)
        case isFalse reference_ =>
          have creates : (hierarchy.m_target inst).dataType = .classType ∨
              (hierarchy.m_target inst).dataType = .valueType →
              (hierarchy.createInstance allocator
                (hierarchy.InitializeReference
                  (hierarchy.newObject allocator nested))
                (heap.withMemory (SetObjectReference heap.memory reference 0))
                reference (hierarchy.m_target inst).dataType inst).Ends
              fun heap' => ∃ regions,
                hierarchy.Creates heap heap' reference inst regions := by
            intro instance_
            apply (createInstance_ends fits instance_ ?_ loaded ?_).mono
            · intro heap' ⟨regions, creates⟩
              exact ⟨regions, creates.afterClear⟩
            · intro heap slot field declared used cleared
              apply initializeReference_ends _ declared used cleared
              intro heap reference inst loaded deeper used
              exact inductionHypothesis loaded (by omega) used
            · exact inUse
          split
          case h_1 string =>
            apply Outcome.ends_ok
            refine ⟨[], Creates.afterClear ⟨rfl, fun _ _ _ _ => rfl, ?_, ?_⟩⟩
            · intro basic
              exact absurd basic reference_
            · intro instance_
              rw [string] at instance_
              simp at instance_
          case h_2 weak =>
            split
            case h_1 => exact Outcome.ends_failed (by decide)
            case h_2 heap₁ weakref found =>
              have ⟨used, keeps⟩ :=
                extractHeapBlocksForObjects_some (by decide) found
              apply Outcome.ends_ok
              refine ⟨[_], Creates.afterClear ⟨used, ?_, ?_, ?_⟩⟩
              · intro address inUse notId notPtr
                refine (SetObjectReference_other notId notPtr).trans ?_
                exact keeps address inUse
              · intro basic
                exact absurd basic reference_
              · intro instance_
                rw [weak] at instance_
                simp at instance_
          case h_3 isClass =>
            exact creates (.inl isClass)
          case h_4 isValue =>
            exact creates (.inr isValue)
          case h_5 => exact Outcome.ends_failed (by decide)

end Creation

/-! ## The layout and the creation -/

/-- The fields of a class lie in the slots from 1 to the last one, the loop of
`NewObject` comes to each of them once, and a new object holds the zero values
of the declared types and nothing of what the heap held before. -/
structure LayoutAgrees
    (hierarchy : FieldHierarchy)
    (cls : TypeIndex) : Prop where
  layout : hierarchy.LayoutExact cls
  walk : ∀ (initialize_ : ObjectHeap → Nat → FieldIndex → Outcome)
      (obj : Nat) (heap : ObjectHeap),
    hierarchy.initializeFields initialize_ obj (hierarchy.m_totalFields cls)
        cls (hierarchy.m_target cls).iFields_Num.toNat none heap =
      hierarchy.initializeEach initialize_ obj
        (hierarchy.declaredFields cls).reverse heap
  creation : ∀ (allocator : Allocator) (heap : ObjectHeap) (reference : Nat),
    heap.SlotInUse reference →
      (hierarchy.NewObject allocator heap reference cls).Ends fun heap' =>
        ∃ regions, hierarchy.Creates heap heap' reference cls regions

/-- Layout and creation agree in the hierarchies whose classes have, with
their bases, no more fields than 16 bits can count. -/
theorem layoutAgrees_iff (hierarchy : FieldHierarchy) :
    (∀ cls, hierarchy.Loaded cls → hierarchy.LayoutAgrees cls) ↔
      ∀ cls, hierarchy.Loaded cls →
        (hierarchy.declaredFields cls).length < 0x10000 := by
  constructor
  · intro agrees cls loaded
    exact (layoutExact_iff loaded).mp (agrees cls loaded).layout
  · intro fits cls loaded
    constructor
    · exact (layoutExact_iff loaded).mpr (fits cls loaded)
    · intro initialize_ obj heap
      rw [initializeFields_eq loaded (fits cls loaded)]
    · intro allocator heap reference inUse
      exact newObject_ends fits loaded (Nat.lt_succ_self _) inUse

/-! ## A hierarchy with too many fields -/

/-- A chain of 258 classes in two assemblies, each with 255 fields. -/
def longChain : FieldHierarchy where
  typeCount assembly := if assembly < 2 then 129 else 0
  m_target cls :=
    { dataType := .classType
      semantics := .Class
      hasFinalizer := false
      extends_ :=
        if 2 ≤ cls.assembly ∨ 129 ≤ cls.type then none
        else if cls.type ≠ 0 then some ⟨cls.assembly, cls.type - 1⟩
        else if cls.assembly = 1 then some ⟨0, 128⟩
        else none
      methods_First := 0
      vMethods_Num := 0
      iMethods_Num := 0
      sMethods_Num := 0
      sFields_First := 0
      iFields_First := 255 * cls.type
      sFields_Num := 0
      iFields_Num := 255 }
  signature _ := some ⟨.i4, 0, ⟨0, 0⟩⟩
  unlinked _ := ⟨fun _ => 0, fun _ => 0, fun _ => false, fun _ => 0⟩
  m_Array := ⟨2, 0⟩
  depth cls := 129 * cls.assembly + cls.type
  depth_extends := by
    intro cls parent above
    grind
  extends_loaded := by
    intro cls parent above
    grind
  fields_apart := by
    intro assembly type other index place loaded _ inside
    constructor
    · intro inOther same
      simp only [UInt8.reduceToNat] at inside inOther same
      omega
    · intro none_
      exact absurd none_ (Nat.not_lt_zero _)
  nesting _ := 0
  nesting_extends := by
    intro cls parent _
    exact Nat.le_refl 0
  nesting_field := by
    intro cls index res _ read value
    cases read
    cases value

theorem longChain_first (type : Nat) (loaded : type < 129) :
    (longChain.declaredFields ⟨0, type⟩).length = 255 * (type + 1) := by
  induction type with
  | zero => rw [length_declaredFields, inheritedFields_none] <;> rfl
  | succ type inductionHypothesis =>
      have above : (longChain.m_target ⟨0, type + 1⟩).extends_ =
          some ⟨0, type⟩ := by
        simp only [longChain]
        rw [if_neg (by omega), if_pos (by omega), Nat.add_sub_cancel]
      rw [length_declaredFields, inheritedFields_some above,
        inductionHypothesis (by omega)]
      show _ + 255 = _
      omega

theorem longChain_second (type : Nat) (loaded : type < 129) :
    (longChain.declaredFields ⟨1, type⟩).length = 255 * (type + 130) := by
  induction type with
  | zero =>
      have above : (longChain.m_target ⟨1, 0⟩).extends_ = some ⟨0, 128⟩ := rfl
      rw [length_declaredFields, inheritedFields_some above,
        longChain_first 128 (by decide)]
      rfl
  | succ type inductionHypothesis =>
      have above : (longChain.m_target ⟨1, type + 1⟩).extends_ =
          some ⟨1, type⟩ := by
        simp only [longChain]
        rw [if_neg (by omega), if_pos (by omega), Nat.add_sub_cancel]
      rw [length_declaredFields, inheritedFields_some above,
        inductionHypothesis (by omega)]
      show _ + 255 = _
      omega

/-- The last class of the chain has 65790 fields and is laid out as if it had
254. -/
theorem longChain_overflows :
    longChain.Loaded ⟨1, 128⟩ ∧
      (longChain.declaredFields ⟨1, 128⟩).length = 65790 ∧
      longChain.m_totalFields ⟨1, 128⟩ = 254 ∧
      ¬ longChain.LayoutAgrees ⟨1, 128⟩ := by
  have loaded : longChain.Loaded ⟨1, 128⟩ := by
    show 128 < if 1 < 2 then 129 else 0
    decide
  have count := longChain_second 128 (by decide)
  refine ⟨loaded, count, ?_, ?_⟩
  · rw [m_totalFields_eq loaded, count]
  · intro agrees
    have fits := (layoutExact_iff loaded).mp agrees.layout
    rw [count] at fits
    omega

end FieldHierarchy

end TypeSystem

end NanoClr
