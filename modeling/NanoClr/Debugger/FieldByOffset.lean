import NanoClr.Debugger.ValueGetField
import NanoClr.TypeSystem.LayoutAgreement

/-!
# Fields by offset

The handler inverts the numbering of the link.  An offset up to the number that
the link wrote for the class leads to a field with that offset; one behind the
fields of the class leads behind the class in the table of fields, and is
rejected only where that table ends.
-/

namespace NanoClr

namespace Debugger

open HeapBlock TypeSystem FieldHierarchy

/-! ## Objects -/

/-- The number of instance fields of a class and its bases. -/
def fieldNumber (hierarchy : FieldHierarchy) (cls : TypeIndex) : Nat :=
  (hierarchy.declaredFields cls).length

/-- An object of a class: its descriptor, a slot for each number that the link
counted, and in the slots no references to references. -/
structure LiveObject
    (hierarchy : FieldHierarchy)
    (memory : Memory)
    (obj : Nat)
    (cls : TypeIndex) : Prop where
  loaded : hierarchy.Loaded cls
  notNull : obj ≠ 0
  tag : IsObject memory obj
  cls_ : memory (obj + 1) = cls.m_data
  size : dataSize memory obj = hierarchy.m_totalFields cls + 1
  slots : ∀ place, place < dataSize memory obj →
    Refers memory (obj + 3 * place) →
      Dereference memory (obj + 3 * place) ≠ 0 →
        ¬ Refers memory (Dereference memory (obj + 3 * place))

/-- A block is the object or refers to it. -/
def Designates (memory : Memory) (blk obj : Nat) : Prop :=
  blk ≠ 0 ∧ (blk = obj ∨ Refers memory blk ∧ Dereference memory blk = obj)

/-- The answer to a command with an offset that the layout of the object's
class calls for: behind the last field the command is rejected; else it selects
the field that got the offset, whose slot is in the object, and the answer
begins with the value of that slot. -/
def AnswersRight
    (program : Debuggee)
    (memory : Memory)
    (rounds obj : Nat)
    (cls : TypeIndex)
    (cmd : Debugging_Value_GetField) : Prop :=
  if fieldNumber program.toFieldHierarchy cls < cmd.m_offset.toNat then
    program.selectField memory rounds cmd = some none
  else
    ∃ field ∈ program.declaredFields cls,
      program.m_offset field = cmd.m_offset.toNat ∧
        cmd.m_offset.toNat < dataSize memory obj ∧
        program.selectField memory rounds cmd =
          some (some (field, .slot (program.slotOf obj field))) ∧
        ∃ referred,
          program.Debugging_Value_GetField memory rounds cmd =
            some (some (valueOf memory (program.slotOf obj field) ::
              referred))

/-- The class in whose part of the field table an offset behind all fields is
looked for: the object's class, or its base where the link counted fewer fields
for the class than it declares itself. -/
def classBehind (program : Debuggee) (cls : TypeIndex) (offset : UInt32) :
    TypeIndex :=
  if program.dFields cls ≤ offset then cls
  else ((program.m_target cls).extends_).getD cls

/-- The index that an offset behind all fields stands for. -/
def indexBehind (program : Debuggee) (cls : TypeIndex) (m_offset : UInt32) :
    CLR_RT_FieldDef_Index :=
  let td := classBehind program cls (m_offset - 1)
  program.fieldAt td (m_offset - 1 - program.dFields td)

/-! ## Counting in 32 bits -/

section Counting

variable {program : Debuggee} {cls : TypeIndex} {offset : UInt32}

theorem m_totalFields_lt (loaded : program.Loaded cls) :
    program.m_totalFields cls < 0x10000 := by
  rw [m_totalFields_eq loaded]
  exact Nat.mod_lt _ (by decide)

theorem toNat_dFields (loaded : program.Loaded cls) :
    (program.dFields cls).toNat =
      (0x100000000 - (program.m_target cls).iFields_Num.toNat +
        program.m_totalFields cls) % 0x100000000 := by
  have small := m_totalFields_lt loaded
  rw [Debuggee.dFields, UInt32.toNat_sub, UInt8.toNat_toUInt32,
    UInt32.toNat_ofNat_of_lt' (Nat.lt_trans small (by decide))]

/-- The class counts at least its own fields. -/
theorem toNat_dFields_of_le
    (loaded : program.Loaded cls)
    (counted : (program.m_target cls).iFields_Num.toNat ≤
      program.m_totalFields cls) :
    (program.dFields cls).toNat =
      program.m_totalFields cls -
        (program.m_target cls).iFields_Num.toNat := by
  have small := m_totalFields_lt loaded
  have own := (program.m_target cls).iFields_Num.toNat_lt
  rw [toNat_dFields loaded]
  omega

/-- The class counts fewer fields than it has itself. -/
theorem toNat_dFields_of_lt
    (loaded : program.Loaded cls)
    (overflown : program.m_totalFields cls <
      (program.m_target cls).iFields_Num.toNat) :
    (program.dFields cls).toNat =
      0x100000000 + program.m_totalFields cls -
        (program.m_target cls).iFields_Num.toNat := by
  have own := (program.m_target cls).iFields_Num.toNat_lt
  rw [toNat_dFields loaded]
  omega

theorem own_le_fieldNumber :
    (program.m_target cls).iFields_Num.toNat ≤
      fieldNumber program.toFieldHierarchy cls := by
  rw [fieldNumber, length_declaredFields]
  exact Nat.le_add_left _ _

/-- Where the fields of the class itself do not account for the number, there
is a base class, with the rest of the fields. -/
theorem exists_parent
    (more : (program.m_target cls).iFields_Num.toNat <
      fieldNumber program.toFieldHierarchy cls) :
    ∃ parent, (program.m_target cls).extends_ = some parent ∧
      fieldNumber program.toFieldHierarchy cls =
        fieldNumber program.toFieldHierarchy parent +
          (program.m_target cls).iFields_Num.toNat := by
  cases above : (program.m_target cls).extends_ with
  | none =>
      rw [fieldNumber, length_declaredFields, inheritedFields_none above,
        List.length_nil] at more
      omega
  | some parent =>
      refine ⟨parent, rfl, ?_⟩
      rw [fieldNumber, length_declaredFields, inheritedFields_some above]
      rfl

theorem climb_here (here : program.dFields cls ≤ offset) :
    program.climb cls offset = some (cls, offset - program.dFields cls) := by
  rw [Debuggee.climb, if_pos here]

theorem climb_above
    {parent : TypeIndex}
    (behind : ¬ program.dFields cls ≤ offset)
    (above : (program.m_target cls).extends_ = some parent) :
    program.climb cls offset = program.climb parent offset := by
  rw [Debuggee.climb, if_neg behind]
  split
  case h_1 parent' above' =>
    rw [above] at above'
    cases above'
    rfl
  case h_2 top =>
    rw [above] at top
    cases top

end Counting

/-! ## The climb -/

section Climb

variable {program : Debuggee} {cls : TypeIndex} {offset : UInt32}

/-- The counts of a class and of its base, modulo 16 bits. -/
theorem m_totalFields_parent
    {parent : TypeIndex}
    (loaded : program.Loaded cls)
    (above : (program.m_target cls).extends_ = some parent) :
    program.m_totalFields cls =
      (program.m_totalFields parent +
        (program.m_target cls).iFields_Num.toNat) % 0x10000 := by
  rw [m_totalFields_eq loaded,
    m_totalFields_eq (program.extends_loaded above), length_declaredFields,
    inheritedFields_some above]
  omega

/-- An offset below the number of the link leads to a field that the class
declares or inherits and that got this offset. -/
theorem climb_inside
    (loaded : program.Loaded cls)
    (inside : offset.toNat < program.m_totalFields cls) :
    ∃ owner index, program.Loaded owner ∧
      index < (program.m_target owner).iFields_Num.toNat ∧
      program.climb cls offset = some (owner, UInt32.ofNat index) ∧
      program.ownField owner index ∈ program.declaredFields cls ∧
      program.m_offset (program.ownField owner index) = offset.toNat + 1 := by
  induction cls using Debuggee.climb.induct program offset with
  | case1 cls here =>
      have small := m_totalFields_lt loaded
      have own := (program.m_target cls).iFields_Num.toNat_lt
      have reached := UInt32.le_iff_toNat_le.mp here
      have counted : (program.m_target cls).iFields_Num.toNat ≤
          program.m_totalFields cls := by
        by_contra overflown
        rw [toNat_dFields_of_lt loaded (by omega)] at reached
        omega
      have inherited := toNat_dFields_of_le loaded counted
      have index : (offset - program.dFields cls).toNat =
          offset.toNat - (program.dFields cls).toNat :=
        UInt32.toNat_sub_of_le _ _ here
      have isOwn : offset.toNat - (program.dFields cls).toNat <
          (program.m_target cls).iFields_Num.toNat := by
        omega
      refine ⟨cls, offset.toNat - (program.dFields cls).toNat, loaded, isOwn,
        ?_, ?_, ?_⟩
      · rw [climb_here here, ← index, UInt32.ofNat_toNat]
      · rw [declaredFields_eq, List.mem_append]
        exact Or.inr (List.mem_map.mpr ⟨_, List.mem_range.mpr isOwn, rfl⟩)
      · rw [m_offset_ownField loaded isOwn, linkedOffset, linkedTotal,
          ← m_totalFields_eq loaded]
        omega
  | case2 cls behind parent above inductionHypothesis =>
      have small := m_totalFields_lt loaded
      have own := (program.m_target cls).iFields_Num.toNat_lt
      have ahead : offset.toNat < (program.dFields cls).toNat := by
        rw [UInt32.le_iff_toNat_le] at behind
        omega
      have loadedParent := program.extends_loaded above
      have smallParent := m_totalFields_lt loadedParent
      have counts := m_totalFields_parent loaded above
      have insideParent :
          offset.toNat < program.m_totalFields parent := by
        by_cases counted : (program.m_target cls).iFields_Num.toNat ≤
            program.m_totalFields cls
        · rw [toNat_dFields_of_le loaded counted] at ahead
          omega
        · omega
      obtain ⟨owner, index, loadedOwner, isOwn, climbed, declared, linked⟩ :=
        inductionHypothesis loadedParent insideParent
      refine ⟨owner, index, loadedOwner, isOwn, ?_, ?_, linked⟩
      · rw [climb_above behind above, climbed]
      · rw [declaredFields_eq, inheritedFields_some above]
        exact List.mem_append_left _ declared
  | case3 cls behind top =>
      have ahead : offset.toNat < (program.dFields cls).toNat := by
        rw [UInt32.le_iff_toNat_le] at behind
        omega
      have own := (program.m_target cls).iFields_Num.toNat_lt
      have count : program.m_totalFields cls =
          (program.m_target cls).iFields_Num.toNat := by
        rw [m_totalFields_eq loaded, length_declaredFields,
          inheritedFields_none top, List.length_nil, Nat.zero_add,
          Nat.mod_eq_of_lt (Nat.lt_trans own (by decide))]
      rw [toNat_dFields_of_le loaded (Nat.le_of_eq count.symm)] at ahead
      omega

/-- An offset behind all fields leads behind the fields of the class, or of its
base. -/
theorem climb_behind
    (loaded : program.Loaded cls)
    (behindAll :
      fieldNumber program.toFieldHierarchy cls ≤ offset.toNat) :
    program.climb cls offset =
      some (classBehind program cls offset,
        offset - program.dFields (classBehind program cls offset)) := by
  by_cases here : program.dFields cls ≤ offset
  · rw [classBehind, if_pos here]
    exact climb_here here
  · have small := m_totalFields_lt loaded
    have own := (program.m_target cls).iFields_Num.toNat_lt
    have count := m_totalFields_eq loaded
    change _ = fieldNumber program.toFieldHierarchy cls % 0x10000 at count
    have ahead := mt UInt32.le_iff_toNat_le.mpr here
    have overflown : program.m_totalFields cls <
        (program.m_target cls).iFields_Num.toNat := by
      by_contra counted
      rw [toNat_dFields_of_le loaded (by omega)] at ahead
      omega
    have ownFields := @own_le_fieldNumber program cls
    obtain ⟨parent, above, number⟩ :=
      @exists_parent program cls (by omega)
    have loadedParent := program.extends_loaded above
    have smallParent := m_totalFields_lt loadedParent
    have ownParent := (program.m_target parent).iFields_Num.toNat_lt
    have counts := m_totalFields_parent loaded above
    have reached : program.dFields parent ≤ offset := by
      rw [UInt32.le_iff_toNat_le, toNat_dFields_of_le loadedParent (by omega)]
      omega
    rw [classBehind, if_neg here, above, Option.getD_some,
      climb_above here above]
    exact climb_here reached

end Climb

/-! ## The command -/

section Command

variable {program : Debuggee} {memory : Memory} {cls td : TypeIndex}
  {obj blk rounds index : Nat} {cmd : Debugging_Value_GetField}

theorem not_refers_of_isObject (isObject : IsObject memory obj) :
    ¬ Refers memory obj := by
  intro refers
  rcases isObject with tag | tag <;> rcases refers with tag' | tag' <;>
    · rw [tag] at tag'
      cases tag'

theorem not_isTime_of_isObject (isObject : IsObject memory obj) :
    ¬ IsTime memory obj := by
  intro isTime
  rcases isObject with tag | tag <;> rcases isTime with tag' | tag' <;>
    · rw [tag] at tag'
      cases tag'

theorem LiveObject.objectCls
    (live : LiveObject program.toFieldHierarchy memory obj cls) :
    ObjectCls memory obj = cls := by
  have small : cls.type < 0x10000 :=
    Nat.lt_of_lt_of_le live.loaded (program.typeCount_le _)
  have assembly : cls.m_data / 0x10000 = cls.assembly := by
    rw [TypeIndex.m_data]
    omega
  have type : cls.m_data % 0x10000 = cls.type := by
    rw [TypeIndex.m_data]
    omega
  rw [ObjectCls, live.cls_, assembly, type]

theorem initializeFromObject_live
    (live : LiveObject program.toFieldHierarchy memory obj cls)
    (designates : Designates memory blk obj)
    (enough : 2 ≤ rounds) :
    program.InitializeFromObject memory rounds blk = some (some cls) := by
  obtain ⟨rounds, rfl⟩ := Nat.exists_eq_add_of_le' enough
  have noReference := not_refers_of_isObject live.tag
  have followed : followReferences memory (rounds + 2) blk =
      some (some obj) := by
    obtain ⟨-, rfl | ⟨refers, dereferenced⟩⟩ := designates
    · rw [followReferences, if_neg noReference]
    · rw [followReferences, if_pos refers]
      simp only [dereferenced]
      rw [if_neg live.notNull, followReferences, if_neg noReference]
  simp [Debuggee.InitializeFromObject, followed, live.tag, live.objectCls]

theorem fieldBlock_live
    (live : LiveObject program.toFieldHierarchy memory obj cls)
    (designates : Designates memory blk obj)
    (m_offset : UInt32) :
    Debuggee.fieldBlock memory blk m_offset =
      some (.slot (obj + 3 * m_offset.toNat)) := by
  have found : (if IsObject memory blk then some blk
      else EnsureObjectReference memory blk) = some obj := by
    obtain ⟨-, rfl | ⟨refers, dereferenced⟩⟩ := designates
    · exact if_pos live.tag
    · have isReference : ¬ IsObject memory blk := fun isObject =>
        not_refers_of_isObject isObject refers
      rw [if_neg isReference, EnsureObjectReference, if_pos refers]
      simp only [dereferenced]
      exact if_pos ⟨live.notNull, Or.inl live.tag⟩
  simp [Debuggee.fieldBlock, found, not_isTime_of_isObject live.tag]

/-- The command is answered from the slot at the offset, unless the index that
the climb ends with is of no field. -/
theorem selectField_live
    (live : LiveObject program.toFieldHierarchy memory obj cls)
    (designates : Designates memory cmd.m_heapblock obj)
    (byOffset : 0 < cmd.m_offset)
    (enough : 2 ≤ rounds)
    {offset : UInt32}
    (climbed : program.climb cls (cmd.m_offset - 1) = some (td, offset)) :
    program.selectField memory rounds cmd =
      some ((program.CheckFieldDef (program.fieldAt td offset)).map
        (·, .slot (obj + 3 * cmd.m_offset.toNat))) := by
  have notZero : cmd.m_offset ≠ 0 := by
    intro zero
    rw [zero] at byOffset
    exact absurd byOffset (by decide)
  have described := initializeFromObject_live live designates enough
  have isIndex : program.indexOfOffset memory rounds cmd.m_heapblock
      cmd.m_offset = some (some (program.fieldAt td offset)) := by
    rw [Debuggee.indexOfOffset, described]
    simp only [Option.bind_eq_bind, Option.bind_some]
    rw [climbed]
  have block := fieldBlock_live live designates cmd.m_offset
  rw [Debuggee.selectField, if_pos ⟨designates.1, byOffset⟩, isIndex]
  simp only [Option.bind_eq_bind, Option.bind_some]
  cases program.CheckFieldDef (program.fieldAt td offset) with
  | none => rfl
  | some inst =>
      simp only [if_neg designates.1, if_neg notZero, block, Option.map_some]

/-- The index of a field of a class is in the table of the assembly. -/
theorem checkFieldDef_ownField
    (loaded : program.Loaded td)
    (isOwn : index < (program.m_target td).iFields_Num.toNat) :
    program.CheckFieldDef (program.fieldAt td (UInt32.ofNat index)) =
      some (program.ownField td index) := by
  have listed := program.assembly_listed loaded
  have numbered := program.assemblies_numbered listed
  have inTable := program.fields_listed loaded isOwn
  have small := program.fieldCount_le td.assembly
  have assembly : (UInt32.ofNat td.assembly).toNat = td.assembly :=
    UInt32.toNat_ofNat_of_lt' (Nat.lt_trans numbered.2 (by decide))
  have record : (UInt32.ofNat (program.m_target td).iFields_First +
      UInt32.ofNat index).toNat =
      (program.m_target td).iFields_First + index := by
    rw [← UInt32.ofNat_add]
    apply UInt32.toNat_ofNat_of_lt'
    exact Nat.lt_of_lt_of_le inTable (Nat.le_trans small (by decide))
  have data : (program.fieldAt td (UInt32.ofNat index)).m_data.toNat =
      td.assembly * 2 ^ 16 + ((program.m_target td).iFields_First + index) := by
    rw [Debuggee.fieldAt, toNat_setIndex, assembly, record]
    · rw [assembly]
      exact numbered.2
    · rw [record]
      exact Nat.lt_of_lt_of_le inTable small
  have isAssembly :
      (program.fieldAt td (UInt32.ofNat index)).Assembly = td.assembly := by
    rw [CLR_RT_FieldDef_Index.Assembly, highHalf_eq, data]
    omega
  have isField : (program.fieldAt td (UInt32.ofNat index)).Field =
      (program.m_target td).iFields_First + index := by
    rw [CLR_RT_FieldDef_Index.Field, lowHalf_eq, data]
    omega
  have valid : (program.fieldAt td (UInt32.ofNat index)).m_data ≠ 0 := by
    intro zero
    rw [zero, UInt32.toNat_zero] at data
    omega
  have found : program.InTable (program.fieldAt td (UInt32.ofNat index)) := by
    rw [Debuggee.InTable, isAssembly, isField]
    exact ⟨listed, inTable⟩
  rw [Debuggee.CheckFieldDef, if_pos ⟨found, valid⟩, isAssembly, isField]
  rfl

/-- An index of a loaded assembly is valid. -/
theorem checkFieldDef_none_iff
    {fd : CLR_RT_FieldDef_Index} :
    program.CheckFieldDef fd = none ↔ ¬ program.InTable fd := by
  rw [Debuggee.CheckFieldDef, ite_eq_right_iff]
  constructor
  · intro rejected inTable
    have numbered := program.assemblies_numbered inTable.1
    refine absurd (rejected ⟨inTable, ?_⟩) (Option.some_ne_none _)
    intro zero
    rw [CLR_RT_FieldDef_Index.Assembly, highHalf_eq, zero] at numbered
    exact absurd numbered.1 (by decide)
  · intro outside accepted
    exact absurd accepted.1 outside

theorem fillValues_block
    {num ptr : Nat}
    (notNull : ptr ≠ 0) :
    FillValues memory (num + 1) ptr =
      if Refers memory ptr then
        (FillValues memory num (Dereference memory ptr)).map
          (valueOf memory ptr :: ·)
      else some [valueOf memory ptr] := by
  rw [FillValues]
  exact notNull

/-- The answer begins with the value of a slot of a live object. -/
theorem getValue_live
    (live : LiveObject program.toFieldHierarchy memory obj cls)
    {place : Nat}
    (inside : place < dataSize memory obj) :
    ∃ referred, GetValue memory (.slot (obj + 3 * place)) =
      some (valueOf memory (obj + 3 * place) :: referred) := by
  have notNull : obj + 3 * place ≠ 0 := by
    have := live.notNull
    omega
  have settled := live.slots place inside
  rw [GetValue, fillValues_block notNull]
  by_cases refers : Refers memory (obj + 3 * place)
  · rw [if_pos refers]
    by_cases null : Dereference memory (obj + 3 * place) = 0
    · refine ⟨[], ?_⟩
      rw [null, FillValues]
      rfl
    · have noReference := settled refers null
      refine ⟨[valueOf memory (Dereference memory (obj + 3 * place))], ?_⟩
      rw [fillValues_block null, if_neg noReference]
      rfl
  · rw [if_neg refers]
    exact ⟨[], rfl⟩

theorem toNat_offset_sub_one (byOffset : 0 < cmd.m_offset) :
    0 < cmd.m_offset.toNat ∧
      (cmd.m_offset - 1).toNat = cmd.m_offset.toNat - 1 := by
  have positive := UInt32.lt_iff_toNat_lt.mp byOffset
  rw [UInt32.toNat_zero] at positive
  exact ⟨positive,
    UInt32.toNat_sub_of_le _ _ (UInt32.le_iff_toNat_le.mpr positive)⟩

/-- An offset up to the number that the link counted selects its field. -/
theorem answersRight_inside
    (live : LiveObject program.toFieldHierarchy memory obj cls)
    (designates : Designates memory cmd.m_heapblock obj)
    (byOffset : 0 < cmd.m_offset)
    (enough : 2 ≤ rounds)
    (inside : cmd.m_offset.toNat ≤
      fieldNumber program.toFieldHierarchy cls % 0x10000) :
    AnswersRight program memory rounds obj cls cmd := by
  obtain ⟨positive, before⟩ := toNat_offset_sub_one byOffset
  have counted := m_totalFields_eq live.loaded
  change _ = fieldNumber program.toFieldHierarchy cls % 0x10000 at counted
  have below := Nat.mod_le (fieldNumber program.toFieldHierarchy cls) 0x10000
  obtain ⟨owner, index, loaded, isOwn, climbed, declared, linked⟩ :=
    @climb_inside program cls (cmd.m_offset - 1) live.loaded (by omega)
  have isOffset : program.m_offset (program.ownField owner index) =
      cmd.m_offset.toNat := by
    omega
  have inObject : cmd.m_offset.toNat < dataSize memory obj := by
    rw [live.size, counted]
    omega
  have selected := selectField_live live designates byOffset enough climbed
  rw [checkFieldDef_ownField loaded isOwn, Option.map_some] at selected
  obtain ⟨referred, answered⟩ := getValue_live live inObject
  rw [AnswersRight, if_neg (by omega)]
  refine ⟨_, declared, isOffset, inObject, ?_, referred, ?_⟩
  · rw [selected, slotOf, isOffset]
  · rw [Debuggee.Debugging_Value_GetField, selected]
    simp only [Option.bind_eq_bind, Option.bind_some]
    rw [answered, slotOf, isOffset]

/-- An offset behind the last field is rejected where no table of fields has
the record that it stands for. -/
theorem answersRight_behind_iff
    (live : LiveObject program.toFieldHierarchy memory obj cls)
    (designates : Designates memory cmd.m_heapblock obj)
    (byOffset : 0 < cmd.m_offset)
    (enough : 2 ≤ rounds)
    (behindAll : fieldNumber program.toFieldHierarchy cls <
      cmd.m_offset.toNat) :
    AnswersRight program memory rounds obj cls cmd ↔
      ¬ program.InTable (indexBehind program cls cmd.m_offset) := by
  obtain ⟨positive, before⟩ := toNat_offset_sub_one byOffset
  have climbed := @climb_behind program cls (cmd.m_offset - 1) live.loaded
    (by omega)
  rw [AnswersRight, if_pos behindAll,
    selectField_live live designates byOffset enough climbed, Option.some_inj,
    Option.map_eq_none_iff, checkFieldDef_none_iff]
  rfl

/-- A command with an offset is answered right for the offsets up to the number
of fields that the link counted, and for those behind the last field that stand
for no record of a table of fields. -/
theorem getField_answersRight_iff
    {program : Debuggee}
    {memory : Memory}
    {obj rounds : Nat}
    {cls : TypeIndex}
    {cmd : Debugging_Value_GetField}
    (live : LiveObject program.toFieldHierarchy memory obj cls)
    (designates : Designates memory cmd.m_heapblock obj)
    (byOffset : 0 < cmd.m_offset)
    (enough : 2 ≤ rounds) :
    AnswersRight program memory rounds obj cls cmd ↔
      cmd.m_offset.toNat ≤
          fieldNumber program.toFieldHierarchy cls % 0x10000 ∨
        fieldNumber program.toFieldHierarchy cls < cmd.m_offset.toNat ∧
          ¬ program.InTable (indexBehind program cls cmd.m_offset) := by
  have below := Nat.mod_le (fieldNumber program.toFieldHierarchy cls) 0x10000
  by_cases behindAll : fieldNumber program.toFieldHierarchy cls <
      cmd.m_offset.toNat
  · rw [answersRight_behind_iff live designates byOffset enough behindAll]
    constructor
    · intro outside
      exact Or.inr ⟨behindAll, outside⟩
    · rintro (small | ⟨-, outside⟩)
      · omega
      · exact outside
  · constructor
    · intro right
      rw [AnswersRight, if_neg behindAll] at right
      obtain ⟨field, -, -, inside, -⟩ := right
      have counted := m_totalFields_eq live.loaded
      change _ = fieldNumber program.toFieldHierarchy cls % 0x10000 at counted
      rw [live.size, counted] at inside
      exact Or.inl (by omega)
    · rintro (inside | ⟨behind, -⟩)
      · exact answersRight_inside live designates byOffset enough inside
      · exact absurd behind behindAll

end Command

/-! ## New objects -/

section NewObjects

variable {hierarchy : FieldHierarchy} {memory : Memory} {obj : Nat}
  {cls : TypeIndex} {field : FieldIndex} {fields : List FieldIndex}
  {regions : List Region}

/-- A slot of a new object refers to nothing or to a structure. -/
theorem notRefers_of_zeroFields
    (zero : hierarchy.ZeroFields memory obj fields regions)
    (declared : field ∈ fields)
    (notNull : Dereference memory (hierarchy.slotOf obj field) ≠ 0) :
    ¬ Refers memory (Dereference memory (hierarchy.slotOf obj field)) := by
  induction zero with
  | nil => cases declared
  | plain _ _ holds _ inductionHypothesis =>
      rcases List.mem_cons.mp declared with rfl | later
      · exact absurd holds.low notNull
      · exact inductionHypothesis later notNull
  | struct _ isStructure _ holds header _ _ _ inductionHypothesis =>
      rcases List.mem_cons.mp declared with rfl | later
      · rw [Dereference, holds.low]
        apply not_refers_of_isObject
        have tag := header.tag
        rw [isStructure.2.2.2] at tag
        exact Or.inr tag
      · exact inductionHypothesis later notNull

/-- What `NewObject` creates is an object that the handler can be asked for. -/
theorem liveObject_of_creates
    {heap heap' : ObjectHeap}
    {reference : Nat}
    (loaded : hierarchy.Loaded cls)
    (fits : fieldNumber hierarchy cls < 0x10000)
    (isClass : (hierarchy.m_target cls).dataType = .classType ∨
      (hierarchy.m_target cls).dataType = .valueType)
    (creates : hierarchy.Creates heap heap' reference cls regions) :
    Refers heap'.memory reference ∧
      LiveObject hierarchy heap'.memory (Dereference heap'.memory reference)
        cls := by
  obtain ⟨tag, -, header, inner, -, zero⟩ := creates.instance_ isClass
  have isObject : IsObject heap'.memory
      (Dereference heap'.memory reference) := by
    rcases isClass with isClass | isClass
    · exact Or.inl (header.tag.trans (congrArg some isClass))
    · exact Or.inr (header.tag.trans (congrArg some isClass))
  refine ⟨Or.inl tag, loaded, header.notNull, isObject, header.cls_,
    header.size, ?_⟩
  intro place inside refers notNull
  have size : dataSize heap'.memory (Dereference heap'.memory reference) =
      hierarchy.m_totalFields cls + 1 := header.size
  cases place with
  | zero => exact absurd refers (not_refers_of_isObject isObject)
  | succ place =>
      have layout := (layoutExact_iff loaded).mpr fits
      have covered := (layout.covers (place + 1)).mpr ⟨by omega, by omega⟩
      obtain ⟨field, declared, isOffset⟩ := List.mem_map.mp covered
      rw [← isOffset] at notNull ⊢
      exact notRefers_of_zeroFields zero declared notNull

end NewObjects

/-! ## An object of a derived class -/

/-- A class with two fields, and in another assembly a class derived from it
with one field, and a class of its own with one field behind it. -/
def derivedClasses : Debuggee where
  typeCount assembly :=
    if assembly = 1 then 1 else if assembly = 2 then 2 else 0
  m_target cls :=
    { dataType := .classType
      semantics := .Class
      hasFinalizer := false
      extends_ := if cls = ⟨2, 0⟩ then some ⟨1, 0⟩ else none
      methods_First := 0
      vMethods_Num := 0
      iMethods_Num := 0
      sMethods_Num := 0
      sFields_First := 0
      iFields_First := cls.type
      sFields_Num := 0
      iFields_Num := if cls.assembly = 1 then 2 else 1 }
  signature _ := some ⟨.i4, 0, ⟨0, 0⟩⟩
  unlinked _ := ⟨fun _ => 0, fun _ => 0, fun _ => false, fun _ => 0⟩
  m_Array := ⟨0, 0⟩
  depth cls := cls.assembly
  depth_extends := by
    intro cls parent above
    grind
  extends_loaded := by
    intro cls parent above
    grind
  fields_apart := by
    intro assembly type other index place loaded otherLoaded inside
    constructor
    · intro inOther same
      by_cases first : assembly = 1
      · rw [if_pos first] at loaded otherLoaded
        omega
      · simp only [if_neg first, UInt8.reduceToNat] at inside inOther same
        omega
    · intro none_
      exact absurd none_ (Nat.not_lt_zero _)
  nesting _ := 0
  nesting_extends := by
    intro cls parent _
    exact Nat.le_refl 0
  nesting_field := by
    intro cls index res _ read value
    cases read
    cases value
  assemblies := [1, 2]
  fieldCount _ := 2
  isStatic _ := false
  m_pStaticFields _ := 0
  describedClass _ _ := none
  assemblies_numbered := by
    intro assembly listed
    grind
  assembly_listed := by
    intro cls loaded
    grind
  typeCount_le := by
    intro assembly
    grind
  fieldCount_le _ := by decide
  fields_listed := by
    intro cls index loaded inside
    by_cases first : cls.assembly = 1
    · simp only [if_pos first, UInt8.reduceToNat] at loaded inside ⊢
      omega
    · simp only [if_neg first, UInt8.reduceToNat] at loaded inside ⊢
      grind

theorem derivedClasses_fieldNumber :
    fieldNumber derivedClasses.toFieldHierarchy ⟨2, 0⟩ = 3 := by
  have above : (derivedClasses.m_target ⟨2, 0⟩).extends_ = some ⟨1, 0⟩ := rfl
  have top : (derivedClasses.m_target ⟨1, 0⟩).extends_ = none := rfl
  rw [fieldNumber, length_declaredFields, inheritedFields_some above,
    length_declaredFields, inheritedFields_none top]
  rfl

theorem derivedClasses_loaded : derivedClasses.Loaded ⟨2, 0⟩ := by
  show 0 < if 2 = 1 then 1 else if 2 = 2 then 2 else 0
  decide

theorem derivedClasses_totalFields :
    derivedClasses.m_totalFields ⟨2, 0⟩ = 3 := by
  have number := derivedClasses_fieldNumber
  rw [fieldNumber] at number
  rw [m_totalFields_eq derivedClasses_loaded, number]

/-- A reference to an object of the derived class, the object with a number in
each of its slots, and a number behind it. -/
def derivedObject : Memory := fun address =>
  [ rawId DataType.object.code 0 1, 4, 0,
    rawId DataType.classType.code 0 4, 0x20000, 0,
    rawId DataType.i4.code 0 1, 10, 0,
    rawId DataType.i4.code 0 1, 20, 0,
    rawId DataType.i4.code 0 1, 30, 0,
    rawId DataType.i4.code 0 1, 40, 0 ].getD (address - 1) 0

theorem derivedObject_live :
    LiveObject derivedClasses.toFieldHierarchy derivedObject 4 ⟨2, 0⟩ where
  loaded := derivedClasses_loaded
  notNull := by decide
  tag := by decide
  cls_ := by decide
  size := by
    rw [derivedClasses_totalFields]
    decide
  slots := by decide

/-- The field of the derived class, by the reference to the object. -/
theorem getField_answersRight_iff_derived :
    AnswersRight derivedClasses derivedObject 2 4 ⟨2, 0⟩
      ⟨1, 3, ⟨0⟩⟩ := by
  have designates : Designates derivedObject 1 4 :=
    ⟨by decide, Or.inr ⟨by decide, by decide⟩⟩
  apply (getField_answersRight_iff derivedObject_live designates (by decide)
    (Nat.le_refl 2)).mpr
  rw [derivedClasses_fieldNumber]
  exact Or.inl (by decide)

/-- The offset behind the last field is taken for a field of another class, and
the answer is the block behind the object. -/
theorem getField_readsBehind :
    fieldNumber derivedClasses.toFieldHierarchy ⟨2, 0⟩ = 3 ∧
      dataSize derivedObject 4 = 4 ∧
        derivedClasses.selectField derivedObject 2 ⟨4, 4, ⟨0⟩⟩ =
          some (some (⟨2, 1⟩, .slot (4 + 3 * 4))) ∧
          ¬ AnswersRight derivedClasses derivedObject 2 4 ⟨2, 0⟩
            ⟨4, 4, ⟨0⟩⟩ := by
  have designates : Designates derivedObject 4 4 :=
    ⟨by decide, Or.inl rfl⟩
  have inherited : derivedClasses.dFields ⟨2, 0⟩ = 2 := by
    rw [Debuggee.dFields, derivedClasses_totalFields]
    rfl
  have climbed : derivedClasses.climb ⟨2, 0⟩ (4 - 1) = some (⟨2, 0⟩, 1) := by
    rw [climb_here] <;> rw [inherited] <;> decide
  have selected : derivedClasses.selectField derivedObject 2 ⟨4, 4, ⟨0⟩⟩ = _ :=
    selectField_live derivedObject_live designates (by decide)
      (Nat.le_refl 2) climbed
  have checked : derivedClasses.CheckFieldDef
      (derivedClasses.fieldAt ⟨2, 0⟩ 1) = some ⟨2, 1⟩ := by
    decide
  rw [checked] at selected
  refine ⟨derivedClasses_fieldNumber, by decide, selected, ?_⟩
  intro right
  rw [AnswersRight, derivedClasses_fieldNumber, if_pos (by decide),
    selected] at right
  cases right

end Debugger

end NanoClr
