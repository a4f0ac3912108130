import NanoClr.TypeSystem.LocalSignature
import NanoClr.TypeSystem.NewObjectFrame

/-!
# A local and a slot of its type

What one round of `InitializeLocals` gives to a local, next to what
`InitializeReference` gives to a slot of its type on the same heap.
-/

namespace NanoClr

namespace TypeSystem

open HeapBlock

/-! ## Kinds of locals -/

namespace LocalVariable

variable (hierarchy : FieldHierarchy) (variable_ : LocalVariable)
  (element : Element)

/-- The local is an array or a reference to some other place. -/
def Modified : Prop :=
  variable_.byRef = true ∨ 0 < variable_.arrays ∨ 0 < element.m_levels

/-- The local is a value type with a data type of its own. -/
def Optimized : Prop :=
  variable_.base.tag = DATATYPE_VALUETYPE ∧
    (hierarchy.m_target element.m_cls.typeIndex).semantics ≠ .Enum ∧
    (hierarchy.m_target element.m_cls.typeIndex).dataType ≠ .valueType

/-- The local is a value type without an optimized representation. -/
def Structure : Prop :=
  ¬ variable_.Modified element ∧ variable_.base.tag = DATATYPE_VALUETYPE ∧
    (hierarchy.m_target element.m_cls.typeIndex).dataType = .valueType

end LocalVariable

/-- The record of a value type: a structure, an enumeration with the data type
of its numbers, or a type with a data type of its own. -/
def FieldHierarchy.IsValueType
    (hierarchy : FieldHierarchy)
    (cls : TypeIndex) : Prop :=
  cls ≠ hierarchy.m_Array ∧
    (c_Reference (hierarchy.m_target cls).dataType = true →
      (hierarchy.m_target cls).dataType = .valueType ∧
        (hierarchy.m_target cls).semantics ≠ .Enum)

section Agreement

variable (hierarchy : FieldHierarchy) (allocator : Allocator)
  (typeSystem : CLR_RT_TypeSystem) (assm : CLR_RT_Assembly)

/-- The type of the local leads to an element, which is a value type if it is
called one. -/
def LocalVariable.Legal (variable_ : LocalVariable) : Prop :=
  ∃ element, variable_.base.element typeSystem assm = some element ∧
    (variable_.base.tag = DATATYPE_VALUETYPE → element.m_levels = 0 →
      hierarchy.IsValueType element.m_cls.typeIndex)

/-- Two slots have one data type, one size and one value, where the high word
of the value was clear before. -/
structure SameValue (before left right : Memory) (ref : Nat) : Prop where
  tag : dataType left ref = dataType right ref
  size : dataSize left ref = dataSize right ref
  low : left (ref + 1) = right (ref + 1)
  high : before (ref + 2) = 0 → left (ref + 2) = right (ref + 2)

/-- What `InitializeLocals` gives to a local, next to what
`InitializeReference` gives to a slot of its type on the same heap. -/
structure LocalGiven
    (heap heap' : ObjectHeap)
    (ref : Nat)
    (variable_ : LocalVariable)
    (element : Element) : Prop where
  same : ¬ variable_.Modified element →
    ¬ variable_.Optimized hierarchy element →
      initializeReference hierarchy allocator typeSystem assm heap ref
        variable_.typeBytes = some (.S_OK, heap')
  sameValue : variable_.byRef = false →
    ∃ other, initializeReference hierarchy allocator typeSystem assm heap ref
        variable_.typeBytes = some (.S_OK, other) ∧
      SameValue heap.memory other.memory heap'.memory ref
  isNull : variable_.Modified element →
    dataType heap'.memory ref = some .object ∧
      dataSize heap'.memory ref = 1 ∧ heap'.memory (ref + 1) = 0
  instance_ : variable_.Structure hierarchy element →
    hierarchy.Instantiated heap heap' ref element.m_cls.typeIndex
  noInstance : ¬ variable_.Structure hierarchy element →
    heap'.used = heap.used
  changes : heap.ChangesOnly heap' (Region.slot ref)

end Agreement

/-! ## Elements -/

section Elements

variable {hierarchy : FieldHierarchy} {allocator : Allocator}
  {typeSystem : CLR_RT_TypeSystem} {assm : CLR_RT_Assembly}
  {variable_ : LocalVariable} {element : Element}

theorem dataTypeClass_known
    {wellKnown : CLR_RT_WellKnownTypes}
    {dt : UInt8}
    {cls : CLR_RT_TypeDef_Index}
    (known : dataTypeClass wellKnown dt = some (some cls)) :
    dt.toNat ≤ 16 := by
  rw [dataTypeClass] at known
  split at known
  case isTrue isObject =>
    rw [isObject]
    decide
  case isFalse =>
    split at known
    case isTrue isVoid =>
      rw [isVoid]
      decide
    case isFalse =>
      split at known
      case isTrue => cases known
      case isFalse =>
        have inside := (List.getElem?_eq_some_iff.mp
          (Option.some.inj known)).1
        have length : (c_CLR_RT_DataTypeLookup wellKnown).length = 15 := rfl
        omega

theorem ofCode_known
    {dt : UInt8}
    (known : dt.toNat ≤ 18) :
    ∃ kind, DataType.ofCode dt.toNat = some kind := by
  have all : ∀ code < 19, (DataType.ofCode code).isSome = true := by decide
  exact Option.isSome_iff_exists.mp (all _ (Nat.lt_succ_of_le known))

/-- The parser finds known data types only. -/
theorem advanceType_known
    {specs : UInt32 → Option (Option Element)}
    {m_fByRef : Bool}
    {m_levels : Nat}
    {m_sig rest : List UInt8}
    (specsKnown : ∀ index element, specs index = some (some element) →
      element.m_dt.toNat ≤ 18)
    (reads : advanceType typeSystem assm specs m_fByRef m_levels m_sig =
      some (some (element, rest))) :
    element.m_dt.toNat ≤ 18 := by
  induction m_sig generalizing m_fByRef m_levels with
  | nil => cases reads
  | cons m_dt m_sig inductionHypothesis =>
      rw [advanceType] at reads
      split at reads
      case isTrue =>
        split at reads
        case isTrue => cases reads
        case isFalse => exact inductionHypothesis reads
      case isFalse =>
        split at reads
        case isTrue => exact inductionHypothesis reads
        case isFalse =>
          split at reads
          case isTrue named =>
            simp only [Option.bind_eq_bind, Option.bind_eq_some_iff] at reads
            obtain ⟨⟨⟨table, index⟩, behind⟩, _, reads⟩ := reads
            split at reads
            case isTrue =>
              simp only [Option.bind_eq_some_iff, Option.some.injEq,
                Option.map_eq_some_iff] at reads
              obtain ⟨_, found, sub, rfl, same⟩ := reads
              cases same
              exact specsKnown index sub found
            case isFalse =>
              simp only [Option.bind_eq_some_iff, Option.some.injEq,
                Option.map_eq_some_iff] at reads
              obtain ⟨_, _, _, _, same⟩ := reads
              cases same
              rcases named with rfl | rfl
              · show DATATYPE_CLASS.toNat ≤ 18
                decide
              · show DATATYPE_VALUETYPE.toNat ≤ 18
                decide
          case isFalse =>
            simp only [Option.bind_eq_bind, Option.bind_eq_some_iff,
              Option.some.injEq, Option.map_eq_some_iff] at reads
            obtain ⟨_, known, _, rfl, same⟩ := reads
            cases same
            exact (dataTypeClass_known known).trans (by decide)

theorem typeSpecElement_known
    {depth : Nat}
    {index : UInt32}
    (reads : typeSpecElement typeSystem assm depth index =
      some (some element)) :
    element.m_dt.toNat ≤ 18 := by
  induction depth generalizing index element with
  | zero => cases reads
  | succ depth inductionHypothesis =>
      simp only [typeSpecElement, Option.bind_eq_bind, Option.bind_eq_some_iff,
        Option.some.injEq, Option.map_eq_some_iff] at reads
      obtain ⟨_, _, _, found, ⟨_, rest⟩, rfl, rfl⟩ := reads
      apply advanceType_known _ found
      intro index element found
      exact inductionHypothesis found

theorem tokenElement_known
    {tag : UInt8}
    {token : Token}
    (small : tag.toNat ≤ 18)
    (reads : tokenElement typeSystem assm tag token = some element) :
    element.m_dt.toNat ≤ 18 ∧ (element.m_levels = 0 → element.m_dt = tag) := by
  by_cases spec : token.table = .TBL_TypeSpec
  · obtain ⟨found, fits⟩ := tokenElement_spec spec reads
    refine ⟨typeSpecElement_known found, ?_⟩
    intro flat
    exact fits.resolve_left (by omega)
  · obtain ⟨_, _, rfl⟩ := tokenElement_resolved spec reads
    exact ⟨small, fun _ => rfl⟩

/-- The data type of a local, which is its tag where it is no array. -/
theorem element_known
    (base : BaseType)
    (reads : base.element typeSystem assm = some element) :
    element.m_dt.toNat ≤ 18 ∧
      (element.m_levels = 0 → element.m_dt = base.tag) := by
  cases base with
  | basic dt isBasic =>
      simp only [BaseType.element, Option.bind_eq_bind,
        Option.bind_eq_some_iff, Option.join_eq_some_iff, Option.some.injEq]
        at reads
      obtain ⟨m_cls, found, rfl⟩ := reads
      exact ⟨(dataTypeClass_known found).trans (by decide), fun _ => rfl⟩
  | ofClass token =>
      have small : DATATYPE_CLASS.toNat ≤ 18 := by decide
      exact tokenElement_known small reads
  | ofValueType token =>
      have small : DATATYPE_VALUETYPE.toNat ≤ 18 := by decide
      exact tokenElement_known small reads

/-- `InitializeReference` of a slot with the type of a local. -/
theorem initializeReference_typeBytes
    {heap : ObjectHeap}
    {ref : Nat}
    {kind : DataType}
    (reads : variable_.base.element typeSystem assm = some element)
    (known : DataType.ofCode element.m_dt.toNat = some kind) :
    initializeReference hierarchy allocator typeSystem assm heap ref
        variable_.typeBytes =
      hierarchy.initializeElement (hierarchy.NewObject allocator) heap ref
        { m_dt := kind
          m_levels := element.m_levels + variable_.arrays
          m_cls := element.m_cls.typeIndex } := by
  obtain ⟨byRef, advanced⟩ := @advance_typeBytes _ _ _ [] variable_ reads
  rw [List.append_nil] at advanced
  simp [initializeReference, advanced, known]

end Elements

/-! ## One local -/

section OneLocal

variable {hierarchy : FieldHierarchy} {allocator : Allocator}
  {typeSystem : CLR_RT_TypeSystem} {assm : CLR_RT_Assembly}
  {variable_ : LocalVariable} {element : Element} {heap : ObjectHeap}
  {ref : Nat}

theorem modified_iff :
    variable_.Modified element ↔ 0 < (variable_.localType element).levels := by
  rw [LocalVariable.Modified, LocalVariable.localType]
  cases variable_.byRef with
  | false =>
      simp only [Bool.false_eq_true, false_or, Bool.toNat_false]
      omega
  | true =>
      simp only [true_or, true_iff, Bool.toNat_true]
      omega

theorem unmodified
    (plain_ : ¬ variable_.Modified element) :
    variable_.byRef = false ∧ variable_.arrays = 0 ∧ element.m_levels = 0 := by
  simp only [LocalVariable.Modified, not_or, Bool.not_eq_true, not_lt,
    Nat.le_zero] at plain_
  exact plain_

/-- Arrays and references to other places are null. -/
theorem initializeLocal_modified
    (reads : variable_.base.element typeSystem assm = some element)
    (modified : variable_.Modified element) :
    ∃ heap', initializeLocal hierarchy allocator heap ref
        (variable_.localType element) = some (.S_OK, heap') ∧
      LocalGiven hierarchy allocator typeSystem assm heap heap' ref variable_
        element := by
  rw [initializeLocal, if_pos (modified_iff.mp modified)]
  refine ⟨_, rfl, ?_⟩
  have words : ∀ address, address ≠ ref →
      (if (variable_.localType element).pinned then
          setFlags (SetObjectReference heap.memory ref 0) ref HB_Pinned
        else SetObjectReference heap.memory ref 0) address =
        SetObjectReference heap.memory ref 0 address := by
    intro address notId
    split
    case isTrue => exact setDataId_other _ _ _ _ notId
    case isFalse => rfl
  have tags := tag_of_id (@SetObjectReference_id heap.memory ref 0)
  have isNull :
      dataType
          (if (variable_.localType element).pinned then
            setFlags (SetObjectReference heap.memory ref 0) ref HB_Pinned
          else SetObjectReference heap.memory ref 0) ref = some .object ∧
        dataSize
          (if (variable_.localType element).pinned then
            setFlags (SetObjectReference heap.memory ref 0) ref HB_Pinned
          else SetObjectReference heap.memory ref 0) ref = 1 := by
    split
    case isTrue =>
      rw [dataType_setFlags, dataSize_setFlags]
      exact tags
    case isFalse => exact tags
  constructor
  · intro plain_
    exact absurd modified plain_
  · intro notByRef
    obtain ⟨kind, known⟩ := ofCode_known (element_known _ reads).1
    have levels : 0 < element.m_levels + variable_.arrays := by
      rw [LocalVariable.Modified, notByRef] at modified
      simp only [Bool.false_eq_true, false_or] at modified
      omega
    rw [initializeReference_typeBytes reads known,
      FieldHierarchy.initializeElement, if_pos levels]
    refine ⟨_, rfl, ?_⟩
    have cleared := @clearData_holds heap.memory ref .object
    constructor
    · exact cleared.tag.trans isNull.1.symm
    · exact cleared.size.trans isNull.2.symm
    · refine cleared.low.trans ?_
      exact ((words _ (by omega)).trans SetObjectReference_ptr).symm
    · intro clear
      refine cleared.high.trans ?_
      refine ((words _ (by omega)).trans ?_).symm
      exact (SetObjectReference_other (by omega) (by omega)).trans clear
  · intro _
    exact ⟨isNull.1, isNull.2, (words _ (by omega)).trans
      SetObjectReference_ptr⟩
  · intro struct_
    exact absurd modified struct_.1
  · intro _
    rfl
  · refine ⟨⟨[], rfl⟩, ?_⟩
    intro address _ outside
    have notId : address ≠ ref := by
      rintro rfl
      exact outside Region.holds_slot_start
    refine (words address notId).trans (SetObjectReference_other notId ?_)
    rintro rfl
    exact outside (Region.holds_slot (by decide))

/-- The code of value types is that of no other type. -/
theorem valueType_of_ofCode
    {dt : UInt8}
    (small : dt.toNat ≤ 18)
    (known : DataType.ofCode dt.toNat = some .valueType) :
    dt = DATATYPE_VALUETYPE := by
  have all : ∀ code < 19,
      DataType.ofCode code = some .valueType → code = 18 := by decide
  exact UInt8.toNat_inj.mp (all _ (Nat.lt_succ_of_le small) known)

/-- The branches for value types. -/
theorem initializeLocal_value
    (plain_ : ¬ variable_.Modified element)
    (value : variable_.base.tag = DATATYPE_VALUETYPE) :
    initializeLocal hierarchy allocator heap ref
        (variable_.localType element) =
      if (hierarchy.m_target element.m_cls.typeIndex).dataType ≠ .valueType
      then
        FieldHierarchy.initializeSlot heap ref
          (hierarchy.m_target element.m_cls.typeIndex).dataType
      else
        hierarchy.NewObject allocator heap ref element.m_cls.typeIndex := by
  have tagged : (variable_.localType element).dt = DATATYPE_VALUETYPE := value
  rw [initializeLocal, if_neg (modified_iff.not.mp plain_), if_pos tagged]
  rfl

/-- The branches for all other types. -/
theorem initializeLocal_other
    {kind : DataType}
    (plain_ : ¬ variable_.Modified element)
    (notValue : variable_.base.tag ≠ DATATYPE_VALUETYPE)
    (known : DataType.ofCode variable_.base.tag.toNat = some kind) :
    initializeLocal hierarchy allocator heap ref
        (variable_.localType element) =
      FieldHierarchy.initializeSlot heap ref
        (if c_Reference kind then .object else kind) := by
  have tagged : (variable_.localType element).dt ≠ DATATYPE_VALUETYPE :=
    notValue
  have read : DataType.ofCode (variable_.localType element).dt.toNat =
      some kind := known
  rw [initializeLocal, if_neg (modified_iff.not.mp plain_), if_neg tagged, read]
  rfl

/-- A local without modifiers that is no structure gets a tag and zeros. -/
theorem initializeLocal_slot
    (reads : variable_.base.element typeSystem assm = some element)
    (plain_ : ¬ variable_.Modified element)
    (noStruct : ¬ variable_.Structure hierarchy element) :
    ∃ kind, initializeLocal hierarchy allocator heap ref
        (variable_.localType element) =
      FieldHierarchy.initializeSlot heap ref kind := by
  by_cases value : variable_.base.tag = DATATYPE_VALUETYPE
  · have notBlock :
        (hierarchy.m_target element.m_cls.typeIndex).dataType ≠ .valueType := by
      intro block
      exact noStruct ⟨plain_, value, block⟩
    exact ⟨_, (initializeLocal_value plain_ value).trans (if_pos notBlock)⟩
  · obtain ⟨small, tagged⟩ := element_known _ reads
    rw [tagged (unmodified plain_).2.2] at small
    obtain ⟨kind, known⟩ := ofCode_known small
    exact ⟨_, initializeLocal_other plain_ value known⟩

/-- The same call for a local without modifiers and for a slot of its type,
unless the type is an optimized value type. -/
theorem initializeLocal_same
    (reads : variable_.base.element typeSystem assm = some element)
    (legal : variable_.base.tag = DATATYPE_VALUETYPE → element.m_levels = 0 →
      hierarchy.IsValueType element.m_cls.typeIndex)
    (plain_ : ¬ variable_.Modified element)
    (general : ¬ variable_.Optimized hierarchy element) :
    initializeLocal hierarchy allocator heap ref
        (variable_.localType element) =
      initializeReference hierarchy allocator typeSystem assm heap ref
        variable_.typeBytes := by
  obtain ⟨notByRef, noArrays, flat⟩ := unmodified plain_
  obtain ⟨small, tagged⟩ := element_known _ reads
  obtain ⟨kind, known⟩ := ofCode_known small
  have noLevels : ¬ 0 < element.m_levels + variable_.arrays := by omega
  rw [initializeReference_typeBytes reads known,
    FieldHierarchy.initializeElement, if_neg noLevels]
  rw [tagged flat] at small known
  by_cases value : variable_.base.tag = DATATYPE_VALUETYPE
  · have isValue := (legal value flat).2
    rw [value] at known
    cases known
    rw [initializeLocal_value plain_ value, if_pos rfl]
    by_cases enum : (hierarchy.m_target
        element.m_cls.typeIndex).semantics = .Enum
    · have number : (hierarchy.m_target
          element.m_cls.typeIndex).dataType ≠ .valueType := by
        intro block
        rw [block] at isValue
        exact (isValue rfl).2 enum
      rw [if_pos enum, if_pos number]
    · have block : (hierarchy.m_target
          element.m_cls.typeIndex).dataType = .valueType := by
        by_contra other
        exact general ⟨value, enum, other⟩
      rw [if_neg enum, if_neg (not_not.mpr block)]
  · have notValue : kind ≠ .valueType := by
      rintro rfl
      exact value (valueType_of_ofCode small known)
    rw [initializeLocal_other plain_ value known, if_neg notValue]
    split
    case isTrue => rfl
    case isFalse => rfl

/-- `NewObject` of a type that is no reference. -/
theorem newObject_basic
    {cls : TypeIndex}
    (notArray : cls ≠ hierarchy.m_Array)
    (basic : c_Reference (hierarchy.m_target cls).dataType = false) :
    hierarchy.NewObject allocator heap ref cls =
      some (.S_OK, heap.withMemory
        (setDataId (SetObjectReference heap.memory ref 0) ref
          (rawId (hierarchy.m_target cls).dataType.code 0 1))) := by
  rw [FieldHierarchy.NewObject, FieldHierarchy.newObject]
  simp only [if_neg notArray, if_pos basic]
  rfl

/-- An optimized value type has the same data type and the same value in a
local as elsewhere. -/
theorem initializeReference_optimized
    (reads : variable_.base.element typeSystem assm = some element)
    (isValue : hierarchy.IsValueType element.m_cls.typeIndex)
    (plain_ : ¬ variable_.Modified element)
    (optimized : variable_.Optimized hierarchy element) :
    ∃ heap' other, initializeLocal hierarchy allocator heap ref
        (variable_.localType element) = some (.S_OK, heap') ∧
      initializeReference hierarchy allocator typeSystem assm heap ref
        variable_.typeBytes = some (.S_OK, other) ∧
      SameValue heap.memory other.memory heap'.memory ref := by
  obtain ⟨notByRef, noArrays, flat⟩ := unmodified plain_
  obtain ⟨value, notEnum, notBlock⟩ := optimized
  have tagged := (element_known _ reads).2 flat
  have known : DataType.ofCode element.m_dt.toNat = some .valueType := by
    rw [tagged, value]
    rfl
  have noLevels : ¬ 0 < element.m_levels + variable_.arrays := by omega
  have basic : c_Reference
      (hierarchy.m_target element.m_cls.typeIndex).dataType = false := by
    rw [← Bool.not_eq_true]
    intro reference
    exact notBlock (isValue.2 reference).1
  rw [initializeReference_typeBytes reads known,
    FieldHierarchy.initializeElement, if_neg noLevels, if_pos rfl,
    if_neg notEnum, newObject_basic isValue.1 basic,
    initializeLocal_value plain_ value, if_pos notBlock]
  refine ⟨_, _, rfl, rfl, ?_⟩
  have cleared := @clearData_holds heap.memory ref
    (hierarchy.m_target element.m_cls.typeIndex).dataType
  have tags := tag_of_id (setDataId_same
    (SetObjectReference heap.memory ref 0) ref
    (rawId (hierarchy.m_target element.m_cls.typeIndex).dataType.code 0 1))
  constructor
  · exact tags.1.trans cleared.tag.symm
  · exact tags.2.trans cleared.size.symm
  · refine Eq.trans ?_ cleared.low.symm
    exact (setDataId_other _ _ _ _ (by omega)).trans SetObjectReference_ptr
  · intro clear
    refine Eq.trans ?_ cleared.high.symm
    refine (setDataId_other _ _ _ _ (by omega)).trans ?_
    exact (SetObjectReference_other (by omega) (by omega)).trans clear

/-- A local gets what a slot of its type gets, or there is no memory for a
structure. -/
theorem initializeLocal_given
    (reads : variable_.base.element typeSystem assm = some element)
    (legal : variable_.base.tag = DATATYPE_VALUETYPE → element.m_levels = 0 →
      hierarchy.IsValueType element.m_cls.typeIndex)
    (inUse : heap.SlotInUse ref) :
    ∃ hr heap', initializeLocal hierarchy allocator heap ref
        (variable_.localType element) = some (hr, heap') ∧
      (hr = .S_OK → LocalGiven hierarchy allocator typeSystem assm heap heap'
        ref variable_ element) ∧
      (hr ≠ .S_OK → variable_.Structure hierarchy element ∧
        initializeReference hierarchy allocator typeSystem assm heap ref
          variable_.typeBytes = some (hr, heap')) := by
  by_cases modified : variable_.Modified element
  · obtain ⟨heap', result, given⟩ := @initializeLocal_modified hierarchy
      allocator typeSystem assm variable_ element heap ref reads modified
    exact ⟨.S_OK, heap', result, fun _ => given, fun failed =>
      absurd rfl failed⟩
  · have flat := (unmodified modified).2.2
    by_cases struct_ : variable_.Structure hierarchy element
    · have general : ¬ variable_.Optimized hierarchy element :=
        fun optimized => optimized.2.2 struct_.2.2
      have same := @initializeLocal_same hierarchy allocator typeSystem assm
        variable_ element heap ref reads legal modified general
      have created : initializeLocal hierarchy allocator heap ref
          (variable_.localType element) =
          hierarchy.NewObject allocator heap ref
            element.m_cls.typeIndex := by
        rw [initializeLocal_value modified struct_.2.1,
          if_neg (not_not.mpr struct_.2.2)]
      obtain ⟨hr, heap', result, renewed⟩ :=
        @FieldHierarchy.newObject_renews hierarchy allocator heap
          element.m_cls.typeIndex ref _ (Nat.lt_succ_self _) inUse
      have called : initializeLocal hierarchy allocator heap ref
          (variable_.localType element) = some (hr, heap') :=
        created.trans result
      refine ⟨hr, heap', called, ?_, fun _ => ⟨struct_, same ▸ called⟩⟩
      rintro rfl
      have created := renewed rfl
      constructor
      · intro _ _
        rw [← same, called]
      · intro _
        exact ⟨heap', same ▸ called, rfl, rfl, rfl, fun _ => rfl⟩
      · intro isModified
        exact absurd isModified modified
      · intro _
        exact created.instance_ (.inr struct_.2.2)
      · intro noStruct
        exact absurd struct_ noStruct
      · exact created.changes
    · obtain ⟨kind, called⟩ := @initializeLocal_slot hierarchy allocator
        typeSystem assm variable_ element heap ref reads modified struct_
      refine ⟨.S_OK, _, called, ?_, fun failed => absurd rfl failed⟩
      intro _
      constructor
      · intro _ general
        rw [← initializeLocal_same reads legal modified general, called]
        rfl
      · intro _
        by_cases optimized : variable_.Optimized hierarchy element
        · obtain ⟨heap', other, result, elsewhere, value⟩ :=
            @initializeReference_optimized hierarchy allocator typeSystem assm
              variable_ element heap ref reads
              (legal optimized.1 flat) modified optimized
          rw [called] at result
          cases result
          exact ⟨other, elsewhere, value⟩
        · refine ⟨_, ?_, rfl, rfl, rfl, fun _ => rfl⟩
          rw [← initializeLocal_same reads legal modified optimized, called]
          rfl
      · intro isModified
        exact absurd isModified modified
      · intro isStruct
        exact absurd isStruct struct_
      · intro _
        rfl
      · refine ⟨⟨[], rfl⟩, ?_⟩
        intro address _ outside
        exact clearData_other outside

end OneLocal

end TypeSystem

end NanoClr
