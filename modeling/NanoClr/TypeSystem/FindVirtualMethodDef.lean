import NanoClr.TypeSystem.MatchSignature

/-!
# The search for a virtual method

The type system finds the implementation of a method by its name and signature,
from a class up through its parents.
-/

namespace NanoClr

namespace TypeSystem

/-! ## Names of types -/

/-- A buffer for a name: the string in it so far and how much is left. -/
structure NameBuffer where
  szBuffer : Text
  iBuffer : Nat

/-- `QueueStringToBuffer`: a text that just fits loses its last character to
the terminator; a longer one is terminated outside the buffer. -/
def queueStringToBuffer (buffer : NameBuffer) (szText : Text) :
    Option NameBuffer :=
  if szText.length < buffer.iBuffer then
    some {
      szBuffer := buffer.szBuffer ++ szText
      iBuffer := buffer.iBuffer - szText.length
    }
  else if szText.length = buffer.iBuffer then
    some {
      szBuffer := buffer.szBuffer ++ szText.take (buffer.iBuffer - 1)
      iBuffer := 0
    }
  else
    none

/-- `"."` -/
def dot : Text := [0x2E]

/-- `BuildTypeName` with the full name and dots between nested types; a type
that is nested deeper than there are types encloses itself. -/
def buildTypeName (assm : CLR_RT_Assembly) :
    Nat → CLR_RECORD_TYPEDEF → NameBuffer → Option NameBuffer
  | 0, _, _ => none
  | depth + 1, td, buffer => do
      let buffer ←
        if td.enclosingType ≠ CLR_EmptyIndex then do
          let enclosing ← assm.typeDefs[td.enclosingType]?
          let buffer ← buildTypeName assm depth enclosing buffer
          queueStringToBuffer buffer dot
        else some buffer
      let buffer ←
        if td.nameSpace ≠ CLR_EmptyIndex then do
          let szNameSpace ← assm.getString td.nameSpace
          if szNameSpace ≠ [] then do
            let buffer ← queueStringToBuffer buffer szNameSpace
            queueStringToBuffer buffer dot
          else some buffer
        else some buffer
      let name ← assm.getString td.name
      queueStringToBuffer buffer name

/-- `MAXSTRLEN(rgBuffer)`. -/
def maxNameLength : Nat := 511

/-- The name of a method behind the full name of its interface. -/
def interfaceMethodName (inst : CLR_RT_TypeDef_Instance) (calleeName : Text) :
    Option Text := do
  let buffer ← buildTypeName inst.m_assm inst.m_assm.typeDefs.length
    inst.m_target { szBuffer := [], iBuffer := maxNameLength }
  let buffer ← queueStringToBuffer buffer dot
  let buffer ← queueStringToBuffer buffer calleeName
  some buffer.szBuffer

/-! ## The search -/

section Search

variable (typeSystem : CLR_RT_TypeSystem)
variable (calleeInst : CLR_RT_MethodDef_Instance) (calleeName : Text)

/-- Whether a method of a class implements the method that is called. -/
def implements (targetAssm : CLR_RT_Assembly)
    (targetMDR : CLR_RECORD_METHODDEF) : Option Bool :=
  if targetMDR.numArgs = calleeInst.m_target.numArgs ∧
      targetMDR.flags &&& MD_Abstract = 0 then do
    let targetName ← targetAssm.getString targetMDR.name
    if targetName = calleeName then do
      let parserLeft ←
        initialize_MethodSignature calleeInst.m_assm calleeInst.m_target
      let parserRight ← initialize_MethodSignature targetAssm targetMDR
      matchSignature typeSystem parserLeft parserRight
    else some false
  else some false

/-- The loop over the virtual and instance methods of a class, at the number
of one of them with as many to go. -/
def searchMethods (clsInst : CLR_RT_TypeDef_Instance) :
    Nat → Nat → Option (Option CLR_RT_MethodDef_Index)
  | _, 0 => some none
  | i, remaining + 1 => do
      let method := i + clsInst.m_target.methods_First
      let targetMDR ← clsInst.m_assm.methodDefs[method]?
      if clsInst.index.Assembly = calleeInst.index.Assembly ∧
          method = calleeInst.index.Method then
        -- Shortcut for identity.
        some (some calleeInst.index)
      else if ← implements typeSystem calleeInst calleeName clsInst.m_assm
          targetMDR then
        some (some ⟨setIndex clsInst.m_assm.m_idx (.ofNat method)⟩)
      else
        searchMethods clsInst (i + 1) remaining

/-- The virtual and instance methods of a class. -/
def searchClass (clsInst : CLR_RT_TypeDef_Instance) :
    Option (Option CLR_RT_MethodDef_Index) :=
  searchMethods typeSystem calleeInst calleeName clsInst 0
    (clsInst.m_target.vMethods_Num + clsInst.m_target.iMethods_Num)

/-- The loop from a class up through its parents; one with more classes than
there are comes back to a class. -/
def searchParents :
    Nat → Option CLR_RT_TypeDef_Instance →
      Option (Option CLR_RT_MethodDef_Index)
  | 0, _ => none
  | _ + 1, none => some none
  | depth + 1, some clsInst => do
      match ← searchClass typeSystem calleeInst calleeName clsInst with
      | some idx => some (some idx)
      | none =>
          let parent ← clsInst.switchToParent typeSystem
          searchParents depth parent

end Search

section FindVirtualMethodDef

variable (typeSystem : CLR_RT_TypeSystem)

/-- `FindVirtualMethodDef` under a given name. -/
def findVirtualMethodDefNamed (cls : CLR_RT_TypeDef_Index)
    (calleeInst : CLR_RT_MethodDef_Instance) (calleeName : Text) :
    Option (Option CLR_RT_MethodDef_Index) := do
  let clsInst ← CLR_RT_TypeDef_Instance.initializeFromIndex typeSystem cls
  searchParents typeSystem calleeInst calleeName (typeSystem.typeCount + 1)
    clsInst

/-- `FindVirtualMethodDef`: the method that is found, if any.  A method of an
interface is first looked for under the name of an explicit implementation. -/
def findVirtualMethodDef (cls : CLR_RT_TypeDef_Index)
    (calleeMD : CLR_RT_MethodDef_Index) :
    Option (Option CLR_RT_MethodDef_Index) := do
  match ← CLR_RT_MethodDef_Instance.initializeFromIndex typeSystem calleeMD with
  | none => some none
  | some calleeInst =>
      let calleeName ← calleeInst.m_assm.getString calleeInst.m_target.name
      let inst ← CLR_RT_TypeDef_Instance.initializeFromMethod calleeInst
      let explicit ←
        if inst.m_target.flags &&& TD_Semantics_Mask =
            TD_Semantics_Interface then do
          let rgBuffer ← interfaceMethodName inst calleeName
          findVirtualMethodDefNamed typeSystem cls calleeInst rgBuffer
        else some none
      match explicit with
      | some idx => some (some idx)
      | none => findVirtualMethodDefNamed typeSystem cls calleeInst calleeName

end FindVirtualMethodDef

/-! ## Identity -/

section Identity

variable {typeSystem : CLR_RT_TypeSystem}
variable {clsInst : CLR_RT_TypeDef_Instance}
variable {calleeInst : CLR_RT_MethodDef_Instance} {calleeName : Text}

/-- The search reaches a method behind ones that do not implement it. -/
theorem searchMethods_identity
    {i position remaining : Nat}
    (sameAssembly : clsInst.index.Assembly = calleeInst.index.Assembly)
    (isMethod : i + position + clsInst.m_target.methods_First =
      calleeInst.index.Method)
    (inTable : ∃ targetMDR,
      clsInst.m_assm.methodDefs[calleeInst.index.Method]? = some targetMDR)
    (below : position < remaining)
    (ahead : ∀ earlier < position, ∃ targetMDR,
      clsInst.m_assm.methodDefs[
          i + earlier + clsInst.m_target.methods_First]? = some targetMDR ∧
        implements typeSystem calleeInst calleeName clsInst.m_assm targetMDR =
          some false) :
    searchMethods typeSystem calleeInst calleeName clsInst i remaining =
      some (some calleeInst.index) := by
  induction position generalizing i remaining with
  | zero =>
      obtain ⟨fewer, rfl⟩ := Nat.exists_eq_add_of_lt below
      obtain ⟨targetMDR, isRecord⟩ := inTable
      rw [Nat.add_zero] at isMethod
      simp [searchMethods, isMethod, isRecord, sameAssembly]
  | succ position inductionHypothesis =>
      obtain ⟨fewer, rfl⟩ : ∃ fewer, remaining = fewer + 1 :=
        ⟨remaining - 1, by omega⟩
      obtain ⟨targetMDR, isRecord, notThis⟩ :=
        ahead 0 (Nat.succ_pos position)
      have different : i + clsInst.m_target.methods_First ≠
          calleeInst.index.Method := by omega
      have others : searchMethods typeSystem calleeInst calleeName clsInst
          (i + 1) fewer = some (some calleeInst.index) := by
        apply inductionHypothesis
        · omega
        · omega
        · intro earlier before
          rw [show i + 1 + earlier = i + (earlier + 1) by omega]
          exact ahead (earlier + 1) (by omega)
      rw [Nat.add_zero] at isRecord
      simp [searchMethods, isRecord, different, notThis, others]

/-- A class has a method as the first of its kind: among its virtual and
instance methods, and none of them ahead of it implements it. -/
def ListedFirst (typeSystem : CLR_RT_TypeSystem)
    (clsInst : CLR_RT_TypeDef_Instance)
    (calleeInst : CLR_RT_MethodDef_Instance) (calleeName : Text) : Prop :=
  ∃ position <
      clsInst.m_target.vMethods_Num + clsInst.m_target.iMethods_Num,
    position + clsInst.m_target.methods_First = calleeInst.index.Method ∧
      ∀ earlier < position, ∃ targetMDR,
        clsInst.m_assm.methodDefs[earlier + clsInst.m_target.methods_First]? =
            some targetMDR ∧
          implements typeSystem calleeInst calleeName clsInst.m_assm
            targetMDR = some false

/-- A class finds a method that it has as the first of its kind. -/
theorem findVirtualMethodDefNamed_identity
    {cls : CLR_RT_TypeDef_Index}
    (isClass : CLR_RT_TypeDef_Instance.initializeFromIndex typeSystem cls =
      some (some clsInst))
    (sameAssembly : clsInst.index.Assembly = calleeInst.index.Assembly)
    (inTable : ∃ targetMDR,
      clsInst.m_assm.methodDefs[calleeInst.index.Method]? = some targetMDR)
    (first : ListedFirst typeSystem clsInst calleeInst calleeName) :
    findVirtualMethodDefNamed typeSystem cls calleeInst calleeName =
      some (some calleeInst.index) := by
  obtain ⟨position, below, isMethod, ahead⟩ := first
  have inClass : searchClass typeSystem calleeInst calleeName clsInst =
      some (some calleeInst.index) := by
    apply searchMethods_identity sameAssembly _ inTable below
    · simpa using ahead
    · simpa using isMethod
  simp [findVirtualMethodDefNamed, isClass, searchParents, inClass]

end Identity

end TypeSystem

end NanoClr
