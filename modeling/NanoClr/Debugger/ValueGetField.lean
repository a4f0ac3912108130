import NanoClr.TypeSystem.Metadata
import NanoClr.TypeSystem.NewObject

/-!
# Fields in the debugger

`Debugging_Value_GetField` answers with the value of a field.  The field is
given by its index, or by its offset in an object: then the handler climbs from
the class of the object to the class that declares the field, and forms the
index of the field from what is left of the offset.  The class that an answer
names beside a value is left out.
-/

namespace NanoClr

namespace Debugger

open HeapBlock TypeSystem

/-- A field by the number of its assembly and its place there. -/
structure CLR_RT_FieldDef_Index where
  m_data : UInt32
deriving DecidableEq

namespace CLR_RT_FieldDef_Index

/-- `Assembly` of a field. -/
def Assembly (index : CLR_RT_FieldDef_Index) : Nat := highHalf index.m_data

/-- `Field`: its place in the assembly. -/
def Field (index : CLR_RT_FieldDef_Index) : Nat := lowHalf index.m_data

end CLR_RT_FieldDef_Index

/-- The assemblies that the debugger finds loaded.  The types and the instance
fields of an assembly are in its tables, whose records have 16-bit numbers. -/
structure Debuggee extends FieldHierarchy where
  /-- `m_idx` of the loaded assemblies. -/
  assemblies : List Nat
  /-- `m_pTablesSize[ TBL_FieldDef ]`. -/
  fieldCount : Nat → Nat
  /-- `FD_Static`. -/
  isStatic : FieldIndex → Bool
  m_pStaticFields : Nat → Nat
  /-- The class of the descriptor of a block that is neither an object nor a
  reference: an array, a delegate, a number. -/
  describedClass : Memory → Nat → Option TypeIndex
  assemblies_numbered : ∀ {assembly : Nat}, assembly ∈ assemblies →
    0 < assembly ∧ assembly < 0x10000
  assembly_listed : ∀ {cls : TypeIndex},
    cls.type < typeCount cls.assembly → cls.assembly ∈ assemblies
  typeCount_le : ∀ assembly : Nat, typeCount assembly ≤ 0x10000
  fieldCount_le : ∀ assembly : Nat, fieldCount assembly ≤ 0x10000
  fields_listed : ∀ {cls : TypeIndex} {index : Nat},
    cls.type < typeCount cls.assembly →
      index < (m_target cls).iFields_Num.toNat →
        (m_target cls).iFields_First + index < fieldCount cls.assembly

/-- The command: an object or null, an offset or 0, and a field that counts
where there is no offset. -/
structure Debugging_Value_GetField where
  m_heapblock : Nat
  m_offset : UInt32
  m_fd : CLR_RT_FieldDef_Index

/-! ## References -/

/-- The block refers to another one. -/
def Refers (memory : Memory) (block : Nat) : Prop :=
  dataType memory block = some .object ∨ dataType memory block = some .byRef

instance (memory : Memory) (block : Nat) : Decidable (Refers memory block) :=
  inferInstanceAs (Decidable (_ ∨ _))

/-- The block is an object of a class or of a value type. -/
def IsObject (memory : Memory) (block : Nat) : Prop :=
  dataType memory block = some .classType ∨
    dataType memory block = some .valueType

instance (memory : Memory) (block : Nat) : Decidable (IsObject memory block) :=
  inferInstanceAs (Decidable (_ ∨ _))

/-- The block holds a date or a span of time. -/
def IsTime (memory : Memory) (block : Nat) : Prop :=
  dataType memory block = some .dateTime ∨
    dataType memory block = some .timeSpan

instance (memory : Memory) (block : Nat) : Decidable (IsTime memory block) :=
  inferInstanceAs (Decidable (_ ∨ _))

/-- `Dereference`. -/
def Dereference (memory : Memory) (block : Nat) : Nat := memory (block + 1)

/-- `EnsureObjectReference`: the object that a block stands for. -/
def EnsureObjectReference (memory : Memory) (block : Nat) : Option Nat :=
  if Refers memory block then
    let obj := Dereference memory block
    if obj ≠ 0 ∧ (IsObject memory obj ∨ IsTime memory obj) then some obj
    else none
  else if IsTime memory block then some block
  else none

/-- The loop of `InitializeFromObject` over references, for so many rounds. -/
def followReferences (memory : Memory) : Nat → Nat → Option (Option Nat)
  | 0, _ => none
  | rounds + 1, obj =>
      if Refers memory obj then
        let obj := Dereference memory obj
        if obj = 0 then some none else followReferences memory rounds obj
      else some (some obj)

/-- `ObjectCls`. -/
def ObjectCls (memory : Memory) (obj : Nat) : TypeIndex :=
  ⟨memory (obj + 1) / 0x10000, memory (obj + 1) % 0x10000⟩

/-! ## The answer -/

/-- What an answer says of a block: where it is, its type, flags and size, and
the data of a number. -/
structure Debugging_Value where
  m_referenceID : Nat
  m_dt : Nat
  m_flags : Nat
  m_size : Nat
  m_builtinValue : Option (Nat × Nat)
deriving DecidableEq

/-- The types whose data are copied into the answer. -/
def IsBuiltin : DataType → Bool
  | .boolean | .i1 | .u1 | .char | .i2 | .u2 | .i4 | .u4 | .r4 | .i8 | .u8
  | .r8 | .dateTime | .timeSpan | .reflection => true
  | _ => false

/-- What the answer says of a block. -/
def valueOf (memory : Memory) (ptr : Nat) : Debugging_Value where
  m_referenceID := ptr
  m_dt := dataTypeCode memory ptr
  m_flags := dataFlags memory ptr
  m_size := dataSize memory ptr
  m_builtinValue :=
    if (dataType memory ptr).any IsBuiltin then
      some (memory (ptr + 1), memory (ptr + 2))
    else none

/-- `FillValues`: a block and the blocks that it refers to, in an array with
so many places left. -/
def FillValues (memory : Memory) : Nat → Nat → Option (List Debugging_Value)
  | _, 0 => some []
  | 0, _ => none
  | num + 1, ptr =>
      if Refers memory ptr then
        (FillValues memory num (Dereference memory ptr)).map
          (valueOf memory ptr :: ·)
      else some [valueOf memory ptr]

/-- The block with the value of a field: one in memory, or the number of
100-nanosecond ticks that a date holds. -/
inductive ValueBlock where
  | slot (blk : Nat)
  | ticks (reference : Nat)
deriving DecidableEq

/-- `GetValue`. -/
def GetValue (memory : Memory) : ValueBlock → Option (List Debugging_Value)
  | .slot blk => FillValues memory 4 blk
  | .ticks reference =>
      some [
        { m_referenceID := reference
          m_dt := DataType.i8.code
          m_flags := 0
          m_size := 1
          m_builtinValue :=
            some (memory (reference + 1), memory (reference + 2)) } ]

/-! ## The handler -/

namespace Debuggee

variable (program : Debuggee) (memory : Memory)

/-- `InitializeFromObject`: the class that describes a block. -/
def InitializeFromObject (rounds ref : Nat) : Option (Option TypeIndex) := do
  match ← followReferences memory rounds ref with
  | none => some none
  | some obj =>
      if IsObject memory obj then some (some (ObjectCls memory obj))
      else some (program.describedClass memory obj)

/-- The fields that a class inherits, as the handler counts them. -/
def dFields (td : TypeIndex) : UInt32 :=
  UInt32.ofNat (program.m_totalFields td) -
    (program.m_target td).iFields_Num.toUInt32

/-- The loop from a class up: the class in which an offset lies, and the
offset from its first field. -/
def climb (td : TypeIndex) (offset : UInt32) : Option (TypeIndex × UInt32) :=
  if program.dFields td ≤ offset then
    some (td, offset - program.dFields td)
  else
    match _h : (program.m_target td).extends_ with
    | some parent => climb parent offset
    | none => none
termination_by program.depth td
decreasing_by
  exact program.depth_extends _h

/-- The index for `iFields_First` and an offset from there. -/
def fieldAt (td : TypeIndex) (offset : UInt32) : CLR_RT_FieldDef_Index :=
  ⟨setIndex (.ofNat td.assembly)
    (.ofNat (program.m_target td).iFields_First + offset)⟩

/-- The index for an offset in an object. -/
def indexOfOffset (rounds blk : Nat) (m_offset : UInt32) :
    Option (Option CLR_RT_FieldDef_Index) := do
  match ← program.InitializeFromObject memory rounds blk with
  | none => some none
  | some cls =>
      match program.climb cls (m_offset - 1) with
      | none => some none
      | some (td, offset) => some (some (program.fieldAt td offset))

/-- A loaded assembly has the field. -/
def InTable (fd : CLR_RT_FieldDef_Index) : Prop :=
  fd.Assembly ∈ program.assemblies ∧
    fd.Field < program.fieldCount fd.Assembly

instance (fd : CLR_RT_FieldDef_Index) : Decidable (program.InTable fd) :=
  inferInstanceAs (Decidable (_ ∧ _))

/-- `CheckFieldDef`. -/
def CheckFieldDef (fd : CLR_RT_FieldDef_Index) : Option FieldIndex :=
  if program.InTable fd ∧ fd.m_data ≠ 0 then some ⟨fd.Assembly, fd.Field⟩
  else none

/-- `AccessStaticField`. -/
def AccessStaticField (inst : FieldIndex) : Nat :=
  if program.isStatic inst then
    program.m_pStaticFields inst.assembly + 3 * program.m_offset inst
  else 0

/-- The block of a field in an object. -/
def fieldBlock (blk : Nat) (m_offset : UInt32) : Option ValueBlock :=
  let found :=
    if IsObject memory blk then some blk else EnsureObjectReference memory blk
  found.map fun blk =>
    if IsTime memory blk then .ticks blk
    else .slot (blk + 3 * m_offset.toNat)

/-- The field that a command selects, and the block with its value, if the
command is not rejected before a value is read. -/
def selectField (rounds : Nat) (cmd : Debugging_Value_GetField) :
    Option (Option (FieldIndex × ValueBlock)) := do
  let m_fd ←
    if cmd.m_heapblock ≠ 0 ∧ 0 < cmd.m_offset then
      program.indexOfOffset memory rounds cmd.m_heapblock cmd.m_offset
    else some (some cmd.m_fd)
  match m_fd.bind program.CheckFieldDef with
  | none => some none
  | some inst =>
      if cmd.m_heapblock = 0 then
        some (some (inst, .slot (program.AccessStaticField inst)))
      else
        let m_offset :=
          if cmd.m_offset = 0 then UInt32.ofNat (program.m_offset inst)
          else cmd.m_offset
        if m_offset = 0 then some none
        else
          some ((fieldBlock memory cmd.m_heapblock m_offset).map (inst, ·))

/-- `Debugging_Value_GetField`: the values of the reply, if the command is not
rejected. -/
def Debugging_Value_GetField (rounds : Nat)
    (cmd : Debugger.Debugging_Value_GetField) :
    Option (Option (List Debugging_Value)) := do
  match ← program.selectField memory rounds cmd with
  | none => some none
  | some (_, blk) => some (GetValue memory blk)

end Debuggee

end Debugger

end NanoClr
