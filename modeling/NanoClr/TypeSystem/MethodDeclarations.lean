import NanoClr.TypeSystem.FindVirtualMethodDef

/-!
# Declared methods

What the metadata say about the methods of a class and of its bases, and the
search for a virtual method as the search of this list.
-/

set_option linter.style.nameCheck false

namespace NanoClr

namespace TypeSystem

/-! ## Methods as they are declared -/

/-- What tells methods of a class apart: the name and the signature. -/
@[ext]
structure MethodKind where
  name : Text
  numArgs : UInt8
  m_flags : UInt8
  elements : List Element
deriving DecidableEq

/-- A method that a class declares. -/
structure Declaration where
  index : CLR_RT_MethodDef_Index
  flags : UInt32
  kind : MethodKind
deriving DecidableEq

/-- A class and its virtual and instance methods. -/
structure DeclaringClass where
  index : CLR_RT_TypeDef_Index
  methods : List Declaration
deriving DecidableEq

section Reading

variable (typeSystem : CLR_RT_TypeSystem)

/-- So many elements of a signature. -/
def readElements (assm : CLR_RT_Assembly) :
    Nat → List UInt8 → Option (List Element)
  | 0, _ => some []
  | available + 1, m_sig => do
      match ← advance typeSystem assm m_sig with
      | none => none
      | some (res, m_sig) =>
          let others ← readElements assm available m_sig
          some (res :: others)

/-- The name and the signature of a method. -/
def methodKind (assm : CLR_RT_Assembly) (md : CLR_RECORD_METHODDEF) :
    Option MethodKind := do
  let name ← assm.getString md.name
  let parser ← initialize_MethodSignature assm md
  let elements ← readElements typeSystem assm parser.m_count parser.m_sig
  some { name, numArgs := md.numArgs, m_flags := parser.m_flags, elements }

/-- What a method of an assembly is declared as. -/
def declaration (assm : CLR_RT_Assembly) (method : Nat) :
    Option Declaration := do
  let md ← assm.methodDefs[method]?
  let kind ← methodKind typeSystem assm md
  some { index := ⟨setIndex assm.m_idx (.ofNat method)⟩, flags := md.flags, kind }

/-- The methods of a class from one of them on. -/
def declarationsFrom (clsInst : CLR_RT_TypeDef_Instance) :
    Nat → Nat → Option (List Declaration)
  | _, 0 => some []
  | i, remaining + 1 => do
      let first ← declaration typeSystem clsInst.m_assm
        (i + clsInst.m_target.methods_First)
      let others ← declarationsFrom clsInst (i + 1) remaining
      some (first :: others)

/-- The virtual and instance methods of a class. -/
def declarations (clsInst : CLR_RT_TypeDef_Instance) :
    Option (List Declaration) :=
  declarationsFrom typeSystem clsInst 0
    (clsInst.m_target.vMethods_Num + clsInst.m_target.iMethods_Num)

/-- A class and its bases; no result where a class is among its own bases. -/
def classesUp :
    Nat → Option CLR_RT_TypeDef_Instance → Option (List DeclaringClass)
  | 0, _ => none
  | _ + 1, none => some []
  | depth + 1, some clsInst => do
      let methods ← declarations typeSystem clsInst
      let parent ← clsInst.switchToParent typeSystem
      let classes ← classesUp depth parent
      some (⟨clsInst.index, methods⟩ :: classes)

/-- The class of an index and its bases, up to the last one. -/
def classesOf (cls : CLR_RT_TypeDef_Index) : Option (List DeclaringClass) := do
  let clsInst ← CLR_RT_TypeDef_Instance.initializeFromIndex typeSystem cls
  classesUp typeSystem (typeSystem.typeCount + 1) clsInst

end Reading

/-- Loaded assemblies know the number of their slot, and indices have room for
it and for their methods. -/
structure Numbered (typeSystem : CLR_RT_TypeSystem) : Prop where
  m_idx : ∀ slot assm, typeSystem.assembly slot = some assm →
    assm.m_idx.toNat = slot ∧ slot < 2 ^ 16 ∧ assm.methodDefs.length ≤ 2 ^ 16

/-! ## Signatures -/

section Signatures

variable
  {typeSystem : CLR_RT_TypeSystem}
  {assmLeft assmRight : CLR_RT_Assembly}

theorem matchSignatureElement_eq (resLeft resRight : Element) :
    matchSignatureElement resLeft resRight = decide (resLeft = resRight) := by
  cases resLeft
  cases resRight
  simp [matchSignatureElement]

theorem readElements_length
    {assm : CLR_RT_Assembly}
    {available : Nat}
    {m_sig : List UInt8}
    {elements : List Element}
    (read : readElements typeSystem assm available m_sig = some elements) :
    elements.length = available := by
  induction available generalizing m_sig elements with
  | zero =>
      cases read
      rfl
  | succ available inductionHypothesis =>
      rw [readElements] at read
      obtain ⟨next, _, read⟩ := Option.bind_eq_some_iff.mp read
      cases next with
      | none => cases read
      | some next =>
          obtain ⟨others, isRead, read⟩ := Option.bind_eq_some_iff.mp read
          cases read
          rw [List.length_cons, inductionHypothesis isRead]

/-- The elements are compared one by one. -/
theorem matchElements_eq
    {available : Nat}
    {left right : List UInt8}
    {elementsLeft elementsRight : List Element}
    (readLeft : readElements typeSystem assmLeft available left =
      some elementsLeft)
    (readRight : readElements typeSystem assmRight available right =
      some elementsRight) :
    matchElements typeSystem assmLeft assmRight available left right =
      some (decide (elementsLeft = elementsRight)) := by
  induction available generalizing left right elementsLeft elementsRight with
  | zero =>
      cases readLeft
      cases readRight
      rfl
  | succ available inductionHypothesis =>
      rw [readElements] at readLeft readRight
      obtain ⟨nextLeft, isLeft, readLeft⟩ :=
        Option.bind_eq_some_iff.mp readLeft
      obtain ⟨nextRight, isRight, readRight⟩ :=
        Option.bind_eq_some_iff.mp readRight
      cases nextLeft with
      | none => cases readLeft
      | some nextLeft =>
      cases nextRight with
      | none => cases readRight
      | some nextRight =>
      obtain ⟨othersLeft, restLeft, isWhole⟩ :=
        Option.bind_eq_some_iff.mp readLeft
      cases isWhole
      obtain ⟨othersRight, restRight, isWhole⟩ :=
        Option.bind_eq_some_iff.mp readRight
      cases isWhole
      rw [matchElements, isLeft, isRight]
      have others := inductionHypothesis restLeft restRight
      by_cases same : nextLeft.1 = nextRight.1
      · simp [matchSignatureElement_eq, same, others]
      · simp [matchSignatureElement_eq, same]

/-- Two signatures match when their flags and their elements are the same. -/
theorem matchSignature_eq
    {parserLeft parserRight : CLR_RT_SignatureParser}
    {elementsLeft elementsRight : List Element}
    (readLeft : readElements typeSystem parserLeft.m_assm parserLeft.m_count
      parserLeft.m_sig = some elementsLeft)
    (readRight : readElements typeSystem parserRight.m_assm
      parserRight.m_count parserRight.m_sig = some elementsRight) :
    matchSignature typeSystem parserLeft parserRight =
      some (decide (parserLeft.m_flags = parserRight.m_flags ∧
        elementsLeft = elementsRight)) := by
  rw [matchSignature]
  by_cases sameFlags : parserLeft.m_flags = parserRight.m_flags
  · rw [if_neg (not_not.mpr sameFlags), matchSignatureDirect]
    by_cases sameCount : parserLeft.m_count = parserRight.m_count
    · rw [if_neg (not_not.mpr sameCount)]
      rw [← sameCount] at readRight
      simp [matchElements_eq readLeft readRight, sameFlags]
    · rw [if_pos sameCount]
      have different : elementsLeft ≠ elementsRight := by
        rintro rfl
        exact sameCount
          ((readElements_length readLeft).symm.trans
            (readElements_length readRight))
      simp [different]
  · rw [if_pos sameFlags]
    simp [sameFlags]

end Signatures

/-! ## The search -/

/-- A method that is called, with its assembly and its record, and what it is
declared as. -/
structure IsCallee (typeSystem : CLR_RT_TypeSystem)
    (calleeInst : CLR_RT_MethodDef_Instance) (callee : Declaration) : Prop where
  loaded : typeSystem.assembly calleeInst.index.Assembly =
    some calleeInst.m_assm
  record : calleeInst.m_assm.methodDefs[calleeInst.index.Method]? =
    some calleeInst.m_target
  declared : declaration typeSystem calleeInst.m_assm calleeInst.index.Method =
    some callee

namespace Declaration

/-- A method has a body. -/
def HasBody (declaration : Declaration) : Prop :=
  declaration.flags &&& MD_Abstract = 0

instance (declaration : Declaration) : Decidable declaration.HasBody :=
  inferInstanceAs (Decidable (_ = _))

/-- The search for a method under a name stops at the method itself, and at
methods with a body that have the name and the signature of the method. -/
def Answers (callee : Declaration) (name : Text) (target : Declaration) : Prop :=
  target = callee ∨ target.HasBody ∧ target.kind = { callee.kind with name }

instance (callee : Declaration) (name : Text) :
    DecidablePred (callee.Answers name) :=
  fun _ => inferInstanceAs (Decidable (_ ∨ _))

end Declaration

section Search

variable
  {typeSystem : CLR_RT_TypeSystem}
  {calleeInst : CLR_RT_MethodDef_Instance}
  {clsInst : CLR_RT_TypeDef_Instance}
  {callee target : Declaration}
  {calleeName : Text}
  {assm : CLR_RT_Assembly}
  {method : Nat}

theorem declaration_parts
    (read : declaration typeSystem assm method = some target) :
    ∃ md parser, assm.methodDefs[method]? = some md ∧
      assm.getString md.name = some target.kind.name ∧
      initialize_MethodSignature assm md = some parser ∧
      readElements typeSystem parser.m_assm parser.m_count parser.m_sig =
        some target.kind.elements ∧
      target.index = ⟨setIndex assm.m_idx (.ofNat method)⟩ ∧
      target.flags = md.flags ∧ target.kind.numArgs = md.numArgs ∧
      target.kind.m_flags = parser.m_flags := by
  obtain ⟨md, isRecord, read⟩ := Option.bind_eq_some_iff.mp read
  obtain ⟨kind, isKind, read⟩ := Option.bind_eq_some_iff.mp read
  cases read
  obtain ⟨name, isName, isKind⟩ := Option.bind_eq_some_iff.mp isKind
  obtain ⟨parser, isParser, isKind⟩ := Option.bind_eq_some_iff.mp isKind
  obtain ⟨elements, areElements, isKind⟩ := Option.bind_eq_some_iff.mp isKind
  cases isKind
  have sameAssembly : parser.m_assm = assm := by
    rw [initialize_MethodSignature] at isParser
    split at isParser
    · cases isParser
      rfl
    · cases isParser
  rw [← sameAssembly] at areElements
  exact ⟨md, parser, isRecord, isName, isParser, areElements, rfl, rfl, rfl,
    rfl⟩

/-- A method implements another one when it has a body, the name that is looked
for, and the signature of the other one. -/
theorem implements_eq
    {targetMDR : CLR_RECORD_METHODDEF}
    (isCallee : IsCallee typeSystem calleeInst callee)
    (read : declaration typeSystem assm method = some target)
    (isRecord : assm.methodDefs[method]? = some targetMDR) :
    implements typeSystem calleeInst calleeName assm targetMDR =
      some (decide (target.HasBody ∧
        target.kind = { callee.kind with name := calleeName })) := by
  obtain ⟨md, parserRight, isMd, isName, isRight, readRight, _, sameFlags,
    sameArgs, flagsRight⟩ := declaration_parts read
  obtain rfl := Option.some.inj (isMd.symm.trans isRecord)
  obtain ⟨calleeMD, parserLeft, isCalleeMD, _, isLeft, readLeft, _, _,
    calleeArgs, flagsLeft⟩ := declaration_parts isCallee.declared
  obtain rfl := Option.some.inj (isCalleeMD.symm.trans isCallee.record)
  have signatures := matchSignature_eq readLeft readRight
  rw [implements, ← sameArgs, ← calleeArgs, ← sameFlags]
  by_cases body : target.flags &&& MD_Abstract = 0
  · by_cases args : target.kind.numArgs = callee.kind.numArgs
    · rw [if_pos ⟨args, body⟩, isName]
      by_cases name : target.kind.name = calleeName
      · simp [name, isLeft, isRight, signatures, Declaration.HasBody, body,
          MethodKind.ext_iff, args, ← flagsLeft, ← flagsRight, eq_comm]
      · simp [name, MethodKind.ext_iff]
    · rw [if_neg (fun both => args both.1)]
      simp [MethodKind.ext_iff, args]
  · rw [if_neg (fun both => body both.2)]
    simp [Declaration.HasBody, body]

theorem index_parts
    {slot : Nat}
    (numbered : Numbered typeSystem)
    (loaded : typeSystem.assembly slot = some assm)
    (read : declaration typeSystem assm method = some target) :
    target.index.Assembly = slot ∧ target.index.Method = method := by
  obtain ⟨md, _, isRecord, _, _, _, isIndex, _⟩ := declaration_parts read
  obtain ⟨isSlot, slotFits, methodsFit⟩ := numbered.m_idx slot assm loaded
  have inTable : method < 2 ^ 16 :=
    Nat.lt_of_lt_of_le (List.getElem?_eq_some_iff.mp isRecord).1 methodsFit
  have isMethod : (UInt32.ofNat method).toNat = method :=
    Nat.mod_eq_of_lt (Nat.lt_trans inTable (by decide))
  have isNumber : (setIndex assm.m_idx (.ofNat method)).toNat =
      slot * 2 ^ 16 + method := by
    rw [toNat_setIndex (isSlot.symm ▸ slotFits) (isMethod.symm ▸ inTable),
      isMethod, isSlot]
  rw [isIndex]
  constructor
  · rw [CLR_RT_MethodDef_Index.Assembly, highHalf_eq, isNumber]
    omega
  · rw [CLR_RT_MethodDef_Index.Method, lowHalf_eq, isNumber]
    omega

/-- The shortcut for identity is taken at the method itself. -/
theorem identity_iff
    (numbered : Numbered typeSystem)
    (isCallee : IsCallee typeSystem calleeInst callee)
    (loaded : typeSystem.assembly clsInst.index.Assembly =
      some clsInst.m_assm)
    (read : declaration typeSystem clsInst.m_assm method = some target) :
    (clsInst.index.Assembly = calleeInst.index.Assembly ∧
      method = calleeInst.index.Method) ↔ target = callee := by
  constructor
  · rintro ⟨sameAssembly, rfl⟩
    rw [sameAssembly, isCallee.loaded, Option.some.injEq] at loaded
    rw [← loaded, isCallee.declared] at read
    exact (Option.some.inj read).symm
  · rintro rfl
    have parts := index_parts numbered loaded read
    have calleeParts := index_parts numbered isCallee.loaded isCallee.declared
    exact ⟨parts.1.symm.trans calleeParts.1, parts.2.symm.trans calleeParts.2⟩

theorem callee_index
    (numbered : Numbered typeSystem)
    (isCallee : IsCallee typeSystem calleeInst callee) :
    callee.index = calleeInst.index := by
  obtain ⟨sameAssembly, sameMethod⟩ :=
    index_parts numbered isCallee.loaded isCallee.declared
  rw [CLR_RT_MethodDef_Index.Assembly, CLR_RT_MethodDef_Index.Assembly,
    highHalf_eq, highHalf_eq] at sameAssembly
  rw [CLR_RT_MethodDef_Index.Method, CLR_RT_MethodDef_Index.Method,
    lowHalf_eq, lowHalf_eq] at sameMethod
  have same : callee.index.m_data = calleeInst.index.m_data :=
    UInt32.toNat_inj.mp (by omega)
  exact congrArg CLR_RT_MethodDef_Index.mk same

/-- The loop over the methods of a class stops at the first that answers. -/
theorem searchMethods_eq
    {i remaining : Nat}
    {methods : List Declaration}
    (numbered : Numbered typeSystem)
    (isCallee : IsCallee typeSystem calleeInst callee)
    (loaded : typeSystem.assembly clsInst.index.Assembly =
      some clsInst.m_assm)
    (read : declarationsFrom typeSystem clsInst i remaining = some methods) :
    searchMethods typeSystem calleeInst calleeName clsInst i remaining =
      some ((methods.find? fun target =>
        decide (callee.Answers calleeName target)).map Declaration.index) := by
  induction remaining generalizing i methods with
  | zero =>
      cases read
      rfl
  | succ remaining inductionHypothesis =>
      obtain ⟨first, isFirst, read⟩ := Option.bind_eq_some_iff.mp read
      obtain ⟨others, areOthers, read⟩ := Option.bind_eq_some_iff.mp read
      cases read
      obtain ⟨md, _, isRecord, _, _, _, isIndex, _⟩ := declaration_parts isFirst
      have identity := identity_iff numbered isCallee loaded isFirst
      rw [searchMethods]
      simp only [isRecord, Option.bind_eq_bind, Option.bind_some]
      by_cases isSelf : first = callee
      · have answers : callee.Answers calleeName first := .inl isSelf
        rw [if_pos (identity.mpr isSelf),
          List.find?_cons_of_pos (by simpa using answers), Option.map_some,
          isSelf, callee_index numbered isCallee]
      · rw [if_neg (fun same => isSelf (identity.mp same)),
          implements_eq isCallee isFirst isRecord, Option.bind_some]
        by_cases implementing : first.HasBody ∧
            first.kind = { callee.kind with name := calleeName }
        · have answers : callee.Answers calleeName first := .inr implementing
          rw [if_pos (decide_eq_true implementing),
            List.find?_cons_of_pos (by simpa using answers), Option.map_some,
            isIndex]
        · have silent : ¬ callee.Answers calleeName first :=
            fun answers => answers.elim isSelf implementing
          rw [if_neg (by simpa using implementing),
            List.find?_cons_of_neg (by simpa using silent)]
          exact inductionHypothesis areOthers

theorem initializeFromIndex_loaded
    {cls : CLR_RT_TypeDef_Index}
    (isClass : CLR_RT_TypeDef_Instance.initializeFromIndex typeSystem cls =
      some (some clsInst)) :
    typeSystem.assembly clsInst.index.Assembly = some clsInst.m_assm := by
  obtain ⟨rfl, loaded, _⟩ :=
    CLR_RT_TypeDef_Instance.of_initializeFromIndex isClass
  exact loaded

theorem switchToParent_loaded
    {parent : CLR_RT_TypeDef_Instance}
    (isParent : clsInst.switchToParent typeSystem = some (some parent)) :
    typeSystem.assembly parent.index.Assembly = some parent.m_assm := by
  simp only [CLR_RT_TypeDef_Instance.switchToParent] at isParent
  split at isParent
  · cases isParent
  · split at isParent
    · obtain ⟨target, _, isParent⟩ := Option.bind_eq_some_iff.mp isParent
      exact initializeFromIndex_loaded isParent
    · exact initializeFromIndex_loaded isParent

/-- The methods of some classes, in the order of the search. -/
def methodsOf (classes : List DeclaringClass) : List Declaration :=
  classes.flatMap DeclaringClass.methods

/-- The loop over the classes stops at the first method that answers. -/
theorem searchParents_eq
    {depth : Nat}
    {start : Option CLR_RT_TypeDef_Instance}
    {classes : List DeclaringClass}
    (numbered : Numbered typeSystem)
    (isCallee : IsCallee typeSystem calleeInst callee)
    (loaded : ∀ clsInst ∈ start,
      typeSystem.assembly clsInst.index.Assembly = some clsInst.m_assm)
    (read : classesUp typeSystem depth start = some classes) :
    searchParents typeSystem calleeInst calleeName depth start =
      some (((methodsOf classes).find? fun target =>
        decide (callee.Answers calleeName target)).map Declaration.index) := by
  induction depth generalizing start classes with
  | zero => cases read
  | succ depth inductionHypothesis =>
      cases start with
      | none =>
          cases read
          rfl
      | some clsInst =>
          obtain ⟨methods, areMethods, read⟩ := Option.bind_eq_some_iff.mp read
          obtain ⟨parent, isParent, read⟩ := Option.bind_eq_some_iff.mp read
          obtain ⟨others, areOthers, read⟩ := Option.bind_eq_some_iff.mp read
          cases read
          have inClass : searchClass typeSystem calleeInst calleeName clsInst =
              _ :=
            searchMethods_eq numbered isCallee (loaded clsInst rfl) areMethods
          have above := inductionHypothesis
            (fun above isAbove =>
              switchToParent_loaded (isParent.trans (congrArg some isAbove)))
            areOthers
          rw [searchParents, inClass, methodsOf, List.flatMap_cons,
            List.find?_append]
          cases methods.find? fun target =>
              decide (callee.Answers calleeName target) with
          | none =>
              simp only [Option.map_none, Option.bind_eq_bind,
                Option.bind_some, isParent, Option.none_or]
              exact above
          | some target => rfl

/-- The search for a method under a name finds the first method that
answers. -/
theorem findVirtualMethodDefNamed_eq
    {cls : CLR_RT_TypeDef_Index}
    {classes : List DeclaringClass}
    (numbered : Numbered typeSystem)
    (isCallee : IsCallee typeSystem calleeInst callee)
    (read : classesOf typeSystem cls = some classes) :
    findVirtualMethodDefNamed typeSystem cls calleeInst calleeName =
      some (((methodsOf classes).find? fun target =>
        decide (callee.Answers calleeName target)).map Declaration.index) := by
  obtain ⟨start, isStart, read⟩ := Option.bind_eq_some_iff.mp read
  rw [findVirtualMethodDefNamed, isStart]
  apply searchParents_eq numbered isCallee _ read
  rintro clsInst rfl
  exact initializeFromIndex_loaded isStart

/-! ## Indices of declared methods -/

theorem declarationsFrom_declared
    {i remaining : Nat}
    {methods : List Declaration}
    (read : declarationsFrom typeSystem clsInst i remaining = some methods)
    (member : target ∈ methods) :
    ∃ method, declaration typeSystem clsInst.m_assm method = some target := by
  induction remaining generalizing i methods with
  | zero =>
      cases read
      cases member
  | succ remaining inductionHypothesis =>
      obtain ⟨first, isFirst, read⟩ := Option.bind_eq_some_iff.mp read
      obtain ⟨others, areOthers, read⟩ := Option.bind_eq_some_iff.mp read
      cases read
      rcases List.mem_cons.mp member with rfl | isOther
      · exact ⟨_, isFirst⟩
      · exact inductionHypothesis areOthers isOther

theorem classesUp_declared
    {depth : Nat}
    {start : Option CLR_RT_TypeDef_Instance}
    {classes : List DeclaringClass}
    (loaded : ∀ clsInst ∈ start,
      typeSystem.assembly clsInst.index.Assembly = some clsInst.m_assm)
    (read : classesUp typeSystem depth start = some classes)
    (member : target ∈ methodsOf classes) :
    ∃ slot assm method, typeSystem.assembly slot = some assm ∧
      declaration typeSystem assm method = some target := by
  induction depth generalizing start classes with
  | zero => cases read
  | succ depth inductionHypothesis =>
      cases start with
      | none =>
          cases read
          cases member
      | some clsInst =>
          obtain ⟨methods, areMethods, read⟩ := Option.bind_eq_some_iff.mp read
          obtain ⟨parent, isParent, read⟩ := Option.bind_eq_some_iff.mp read
          obtain ⟨others, areOthers, read⟩ := Option.bind_eq_some_iff.mp read
          cases read
          rw [methodsOf, List.flatMap_cons] at member
          rcases List.mem_append.mp member with isOwn | isAbove
          · obtain ⟨method, declared⟩ :=
              declarationsFrom_declared areMethods isOwn
            exact ⟨_, _, method, loaded clsInst rfl, declared⟩
          · refine inductionHypothesis ?_ areOthers isAbove
            exact fun above isParentOf =>
              switchToParent_loaded (isParent.trans (congrArg some isParentOf))

/-- A method of a class is known by its index. -/
theorem methodsOf_index_injective
    {cls : CLR_RT_TypeDef_Index}
    {classes : List DeclaringClass}
    {other : Declaration}
    (numbered : Numbered typeSystem)
    (read : classesOf typeSystem cls = some classes)
    (member : target ∈ methodsOf classes)
    (isOther : other ∈ methodsOf classes)
    (same : target.index = other.index) : target = other := by
  obtain ⟨start, isStart, read⟩ := Option.bind_eq_some_iff.mp read
  have loaded : ∀ clsInst ∈ start,
      typeSystem.assembly clsInst.index.Assembly = some clsInst.m_assm := by
    rintro clsInst rfl
    exact initializeFromIndex_loaded isStart
  obtain ⟨slot, assm, method, isAssembly, declared⟩ :=
    classesUp_declared loaded read member
  obtain ⟨slot', assm', method', isAssembly', declared'⟩ :=
    classesUp_declared loaded read isOther
  obtain ⟨rfl, rfl⟩ := index_parts numbered isAssembly declared
  obtain ⟨isSlot, isMethod⟩ := index_parts numbered isAssembly' declared'
  rw [← isSlot, ← same, isAssembly, Option.some.injEq] at isAssembly'
  rw [← isAssembly', ← isMethod, ← same, declared, Option.some.injEq]
    at declared'
  exact declared'

end Search

end TypeSystem

end NanoClr
