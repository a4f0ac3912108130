import NanoClr.TypeSystem.LocalAgreement

/-!
# Locals and other slots get the same values

Over the whole signature of locals, `InitializeLocals` gives each local the
block that `InitializeReference` gives to a slot of its type, where the type
has no modifiers and is no optimized value type.
-/

namespace NanoClr

namespace TypeSystem

open HeapBlock

/-- The locals that are left. -/
def localsRegion (locals left : Nat) : Region := ⟨locals, 3 * left⟩

section Agreement

variable (hierarchy : FieldHierarchy) (allocator : Allocator)
  (typeSystem : CLR_RT_TypeSystem) (assm : CLR_RT_Assembly)

/-- Only identities of the locals that are left have changed. -/
structure Readied (heap heap' : ObjectHeap) (ref left : Nat) : Prop where
  used : heap'.used = heap.used
  keeps : ∀ address, (∀ index < left, address ≠ ref + 3 * index) →
    heap'.memory address = heap.memory address

/-- The locals have been initialized one after the other, up to the first one
for which there was no memory; each keeps its block until the end. -/
inductive LocalsGiven :
    ObjectHeap → Nat → List LocalVariable → HRESULT → ObjectHeap → Prop
  | done {heap : ObjectHeap} {ref : Nat} : LocalsGiven heap ref [] .S_OK heap
  | next {heap ready heap' final : ObjectHeap} {ref : Nat}
      {variable_ : LocalVariable} {others : List LocalVariable}
      {element : Element} {hr : HRESULT} :
      variable_.base.element typeSystem assm = some element →
      Readied heap ready ref (others.length + 1) →
      LocalGiven hierarchy allocator typeSystem assm ready heap' ref variable_
        element →
      LocalsGiven heap' (ref + 3) others hr final →
      (hr = .S_OK → heap'.ChangesOnly final (localsRegion (ref + 3) others.length)) →
      LocalsGiven heap ref (variable_ :: others) hr final
  | failed {heap ready final : ObjectHeap} {ref : Nat}
      {variable_ : LocalVariable} {others : List LocalVariable}
      {element : Element} {hr : HRESULT} :
      variable_.base.element typeSystem assm = some element →
      Readied heap ready ref (others.length + 1) →
      variable_.Structure hierarchy element →
      initializeReference hierarchy allocator typeSystem assm ready ref
        variable_.typeBytes = some (hr, final) →
      hr ≠ .S_OK →
      LocalsGiven heap ref (variable_ :: others) hr final

end Agreement

section Run

variable {hierarchy : FieldHierarchy} {allocator : Allocator}
  {typeSystem : CLR_RT_TypeSystem} {assm : CLR_RT_Assembly}

theorem makeConsistent_other
    {memory : Memory}
    {ptr count address : Nat}
    (other : ∀ index < count, address ≠ ptr + 3 * index) :
    makeConsistent memory ptr count address = memory address := by
  induction count generalizing memory ptr with
  | zero => rfl
  | succ count inductionHypothesis =>
      rw [makeConsistent, inductionHypothesis]
      · exact setDataId_other _ _ _ _ (other 0 (Nat.succ_pos count))
      · intro index inside
        have next := other (index + 1) (by omega)
        omega

theorem Readied.changesOnly
    {heap ready : ObjectHeap}
    {locals left : Nat}
    (readied : Readied heap ready locals left) :
    heap.ChangesOnly ready (localsRegion locals left) := by
  refine ⟨⟨[], readied.used⟩, ?_⟩
  intro address _ outside
  apply readied.keeps
  intro index inside same
  simp only [Region.Holds, localsRegion] at outside
  omega

theorem prepareLocals_readied
    {fZeroed : Bool}
    {heap : ObjectHeap}
    {locals left : Nat}
    {local_ : LocalType} :
    Readied heap (prepareLocals hierarchy fZeroed heap locals left local_)
      locals left := by
  rw [prepareLocals]
  split
  case isTrue => exact ⟨rfl, fun address other => makeConsistent_other other⟩
  case isFalse => exact ⟨rfl, fun _ _ => rfl⟩

/-- The loop over the locals; the induction is on the locals that are left. -/
theorem initializeLocalsFrom_given
    {declared : List LocalVariable}
    {rest : List UInt8}
    {fZeroed : Bool}
    {heap : ObjectHeap}
    {locals : Nat}
    (legal : ∀ variable_ ∈ declared,
      variable_.Legal hierarchy typeSystem assm)
    (inUse : ∀ address, (localsRegion locals declared.length).Holds address →
      heap.InUse address) :
    ∃ hr final left,
      initializeLocalsFrom hierarchy allocator typeSystem assm fZeroed heap
          locals declared.length (localsSignature declared ++ rest) =
        some (hr, final, left) ∧
      LocalsGiven hierarchy allocator typeSystem assm heap locals declared hr
        final ∧
      (hr = .S_OK → left = rest ∧
        heap.ChangesOnly final (localsRegion locals declared.length)) := by
  induction declared generalizing fZeroed heap locals with
  | nil =>
      exact ⟨.S_OK, heap, rest, rfl, .done, fun _ => ⟨rfl, .refl _ _⟩⟩
  | cons variable_ others inductionHypothesis =>
      obtain ⟨element, reads, valueTypes⟩ := legal variable_
        List.mem_cons_self
      have slotInUse : heap.SlotInUse locals := by
        intro address holds
        apply inUse
        simp only [Region.Holds, Region.slot, localsRegion,
          List.length_cons] at holds ⊢
        omega
      have readied := @prepareLocals_readied hierarchy fZeroed heap locals
        (others.length + 1) (variable_.localType element)
      obtain ⟨hr, heap', called, given, failed⟩ :=
        @initializeLocal_given hierarchy allocator typeSystem assm variable_
          element (prepareLocals hierarchy fZeroed heap locals
            (others.length + 1) (variable_.localType element)) locals reads
          valueTypes fun address holds =>
            readied.changesOnly.inUse (slotInUse address holds)
      have read := @localType_bytes typeSystem assm element
        (localsSignature others ++ rest) variable_ reads
      have round : initializeLocalsFrom hierarchy allocator typeSystem assm
          fZeroed heap locals (others.length + 1)
          (variable_.bytes ++ (localsSignature others ++ rest)) =
          if hr = .S_OK then
            initializeLocalsFrom hierarchy allocator typeSystem assm
              (fZeroed || (variable_.localType element).allocates hierarchy)
              heap' (locals + 3) others.length (localsSignature others ++ rest)
          else
            some (hr, heap', localsSignature others ++ rest) := by
        simp [initializeLocalsFrom, read, called]
      rw [localsSignature, List.flatMap_cons, List.append_assoc,
        List.length_cons]
      rw [localsSignature] at round
      rw [round]
      by_cases ok : hr = .S_OK
      · have first := given ok
        have changes : heap.ChangesOnly heap'
            (localsRegion locals (others.length + 1)) := by
          apply readied.changesOnly.trans first.changes fun _ => id
          intro address holds
          simp only [Region.Holds, Region.slot, localsRegion] at holds ⊢
          omega
        obtain ⟨hr', final, left, result, later, ends⟩ :=
          @inductionHypothesis
            (fZeroed || (variable_.localType element).allocates hierarchy)
            heap' (locals + 3)
            (fun other member => legal other (List.mem_cons_of_mem _ member))
            fun address holds => by
              apply changes.inUse
              apply inUse
              simp only [Region.Holds, localsRegion, List.length_cons]
                at holds ⊢
              omega
        refine ⟨hr', final, left, (if_pos ok).trans result, ?_, ?_⟩
        · exact .next reads readied first later fun ok => (ends ok).2
        · intro ok
          refine ⟨(ends ok).1, changes.trans (ends ok).2 (fun _ => id) ?_⟩
          intro address holds
          simp only [Region.Holds, localsRegion] at holds ⊢
          omega
      · obtain ⟨struct_, elsewhere⟩ := failed ok
        refine ⟨hr, heap', _, if_neg ok, ?_, fun isOk => absurd isOk ok⟩
        exact .failed reads readied struct_ elsewhere ok

end Run

section Example

/-- A structure with one field, an enumeration, and a type with a data type of
its own. -/
def valueTypes : FieldHierarchy where
  typeCount _ := 3
  m_target cls :=
    { dataType :=
        if cls.type = 0 then .valueType
        else if cls.type = 1 then .i4
        else .timeSpan
      semantics := if cls.type = 1 then .Enum else .ValueType
      hasFinalizer := false
      extends_ := none
      methods_First := 0
      vMethods_Num := 0
      iMethods_Num := 0
      sMethods_Num := 0
      sFields_First := 0
      iFields_First := 0
      sFields_Num := 0
      iFields_Num := if cls.type = 0 then 1 else 0 }
  signature _ := some ⟨.i4, 0, ⟨1, 1⟩⟩
  unlinked _ := ⟨fun _ => 0, fun _ => 0, fun _ => false, fun _ => 0⟩
  m_Array := ⟨2, 0⟩
  depth _ := 0
  depth_extends := by
    intro cls parent above
    cases above
  extends_loaded := by
    intro cls parent above
    cases above
  fields_apart := by
    intro assembly type other index place _ _ inside
    have first : ∀ {type index : Nat},
        index < (if type = 0 then (1 : UInt8) else 0).toNat → type = 0 := by
      intro type index inside
      split at inside
      case isTrue first => exact first
      case isFalse => exact absurd inside (Nat.not_lt_zero _)
    constructor
    · intro inOther _
      exact (first inside).trans (first inOther).symm
    · intro none_
      exact absurd none_ (Nat.not_lt_zero _)
  nesting _ := 0
  nesting_extends := by
    intro cls parent _
    exact Nat.le_refl 0
  nesting_field := by
    intro cls index res _ read value
    cases read
    cases value

/-- The token of the first type definition. -/
def firstType : Token := ⟨[0], .TBL_TypeDef, 0, fun _ => rfl⟩

/-- The token of the second type definition. -/
def secondType : Token := ⟨[4], .TBL_TypeDef, 1, fun _ => rfl⟩

/-- The token of the third type definition. -/
def thirdType : Token := ⟨[8], .TBL_TypeDef, 2, fun _ => rfl⟩

/-- Locals of all kinds: a structure, a pinned reference to a number, an array
of numbers, an enumeration, an optimized value type and a string. -/
def manyLocals : List LocalVariable :=
  [ ⟨false, false, 0, .ofValueType firstType⟩,
    ⟨true, true, 0, .basic 5 (by decide)⟩,
    ⟨false, false, 1, .basic 7 (by decide)⟩,
    ⟨false, false, 0, .ofValueType secondType⟩,
    ⟨false, false, 0, .ofValueType thirdType⟩,
    ⟨false, false, 0, .basic 15 (by decide)⟩ ]

/-- An assembly with nothing but signatures. -/
def signaturesOnly (signatures : List UInt8) : CLR_RT_Assembly where
  m_idx := 1
  typeDefs := []
  methodDefs := []
  typeSpecs := []
  signatures
  m_pCrossReference_TypeRef := []
  m_pCrossReference_MethodDef := []
  getString _ := none

/-- Six slots on the stack. -/
def sixSlots : ObjectHeap where
  memory _ := 0
  used := [⟨100, 18⟩]
  apart := List.pairwise_singleton _ _

/-- The signature of many locals, with one byte behind it. -/
def manyLocalsSignature : List UInt8 :=
  [18, 0, 0x45, 20, 5, 19, 7, 18, 4, 18, 8, 15, 42]

theorem manyLocals_legal :
    ∀ variable_ ∈ manyLocals, variable_.Legal valueTypes ⟨[], default⟩
      (signaturesOnly manyLocalsSignature) := by
  simp only [manyLocals, List.forall_mem_cons]
  refine ⟨⟨_, rfl, fun _ _ => ?_⟩, ⟨_, rfl, ?_⟩, ⟨_, rfl, ?_⟩,
    ⟨_, rfl, fun _ _ => ?_⟩, ⟨_, rfl, fun _ _ => ?_⟩, ⟨_, rfl, ?_⟩, ?_⟩
  · exact ⟨by decide, by decide⟩
  · intro value
    exact absurd value (by decide)
  · intro value
    exact absurd value (by decide)
  · exact ⟨by decide, by decide⟩
  · exact ⟨by decide, by decide⟩
  · intro value
    exact absurd value (by decide)
  · intro _ member
    cases member

end Example

end TypeSystem

end NanoClr
