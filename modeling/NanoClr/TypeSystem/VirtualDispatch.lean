import NanoClr.Library.SlotTables
import NanoClr.TypeSystem.ExplicitNames
import NanoClr.TypeSystem.MethodDeclarations

/-!
# Virtual dispatch

A call of a virtual method runs what took the slot of the method last. The
search knows no slots: it goes by names and signatures.
-/

set_option linter.style.nameCheck false

namespace NanoClr

namespace TypeSystem

/-! ## Slots -/

/-- The bits for the visibility of a method. -/
def MD_Scope_Mask : UInt32 := 0x00000007

/-- The visibility of public methods. -/
def MD_Scope_Public : UInt32 := 0x00000006

/-- The flag of virtual methods. -/
def MD_Virtual : UInt32 := 0x00000040

/-- The bit for what a virtual method does with the slots of the bases. -/
def MD_VtableLayoutMask : UInt32 := 0x00000100

/-- The flag of a method that always gets a new slot. -/
def MD_NewSlot : UInt32 := 0x00000100

namespace Declaration

/-- A method is virtual. -/
def IsVirtual (declaration : Declaration) : Prop :=
  declaration.flags &&& MD_Virtual ≠ 0

/-- A method is public. -/
def IsPublic (declaration : Declaration) : Prop :=
  declaration.flags &&& MD_Scope_Mask = MD_Scope_Public

/-- A virtual method opens a slot of its own. -/
def isNewSlot (declaration : Declaration) : Bool :=
  declaration.flags &&& MD_VtableLayoutMask = MD_NewSlot

instance : DecidablePred IsVirtual :=
  fun _ => inferInstanceAs (Decidable (_ ≠ _))

instance : DecidablePred IsPublic :=
  fun _ => inferInstanceAs (Decidable (_ = _))

end Declaration

/-- The virtual methods of some classes. -/
def virtualMethods (classes : List DeclaringClass) : List Declaration :=
  (methodsOf classes).filter fun method => decide method.IsVirtual

/-- The slot of a virtual method in a class that is listed with its bases; the
method that took it last comes first. -/
def slotIn (classes : List DeclaringClass) (method : Declaration) :
    List Declaration :=
  SlotTable.slotOf Declaration.kind Declaration.isNewSlot
    (virtualMethods classes) method

/-- The method of a class itself that implements one of an interface: a method
under the explicit name, or else a public one under the simple name. -/
def implementing (explicit simple : MethodKind) (cls : DeclaringClass) :
    Option Declaration :=
  (cls.methods.find? fun method =>
    decide (method.IsVirtual ∧ method.kind = explicit)).or
  (cls.methods.find? fun method =>
    decide (method.IsVirtual ∧ method.IsPublic ∧ method.kind = simple))

/-- The method that implements one of an interface: from the most derived class
that lists the interface up, the first class has it that implements the
method. -/
def interfaceMethod
    (lists : CLR_RT_TypeDef_Index → Bool)
    (explicit simple : MethodKind) : List DeclaringClass → Option Declaration
  | [] => none
  | cls :: bases =>
      if lists cls.index then
        (cls :: bases).findSome? (implementing explicit simple)
      else
        interfaceMethod lists explicit simple bases

/-! ## Calls -/

/-- A class with a virtual method that is called for it, as the metadata have
them: they can be read, no method is declared twice, and the methods of
interfaces are none of classes. -/
structure VirtualCall (typeSystem : CLR_RT_TypeSystem)
    (cls : CLR_RT_TypeDef_Index) (calleeMD : CLR_RT_MethodDef_Index) where
  calleeInst : CLR_RT_MethodDef_Instance
  inst : CLR_RT_TypeDef_Instance
  classes : List DeclaringClass
  callee : Declaration
  interfaceName : Option Text
  numbered : Numbered typeSystem
  isMethod : CLR_RT_MethodDef_Instance.initializeFromIndex typeSystem
    calleeMD = some (some calleeInst)
  isOwner : CLR_RT_TypeDef_Instance.initializeFromMethod calleeInst = some inst
  isDeclared : declaration typeSystem calleeInst.m_assm
    calleeInst.index.Method = some callee
  areClasses : classesOf typeSystem cls = some classes
  isInterfaceName : explicitName inst callee.kind.name = some interfaceName
  virtual : callee.IsVirtual
  once : (methodsOf classes).Nodup
  declares : callee ∈ methodsOf classes ↔ interfaceName = none

namespace VirtualCall

variable
  {typeSystem : CLR_RT_TypeSystem}
  {cls : CLR_RT_TypeDef_Index}
  {calleeMD : CLR_RT_MethodDef_Index}
  (call : VirtualCall typeSystem cls calleeMD)
  (lists : CLR_RT_TypeDef_Index → CLR_RT_TypeDef_Index → Bool)

/-- The slot of the method that is called: its own one, or that of the method
which implements it for an interface that the classes list. -/
def slot : List Declaration :=
  match call.interfaceName with
  | none => slotIn call.classes call.callee
  | some name =>
      match interfaceMethod (lists · call.inst.index)
          { call.callee.kind with name } call.callee.kind call.classes with
      | none => []
      | some method => slotIn call.classes method

/-- The search returns; what has the slot last and has a body is what it finds,
and it finds nothing outside of the slot. -/
structure Dispatches (found : Option CLR_RT_MethodDef_Index) : Prop where
  result : findVirtualMethodDef typeSystem cls calleeMD = some found
  implementation : ∀ first ∈ (call.slot lists).head?, first.HasBody →
    found = some first.index
  inSlot : ∀ index ∈ found, ∃ method ∈ call.slot lists, method.index = index

/-- The names that are looked for, one behind the other: what is left of the
explicit name in the buffer, and the simple name. -/
def names : List Text :=
  match call.interfaceName with
  | none => [call.callee.kind.name]
  | some name => [name.take (maxNameLength - 1), call.callee.kind.name]

/-- The methods with a body that have a name that is looked for and the
signature of the method, and the method itself: from the class up, and for each
name again. -/
def candidates : List Declaration :=
  call.names.flatMap fun name =>
    (methodsOf call.classes).filter fun target =>
      decide (call.callee.Answers name target)

/-- The explicit name fits in its buffer, or loses its last character and the
implementation is not an explicit one; and a candidate outside of the slot has
one of the slot ahead of it. -/
structure NotHidden : Prop where
  written : ∀ name ∈ call.interfaceName, name.length < maxNameLength ∨
    name.length = maxNameLength ∧
      ∀ first ∈ (call.slot lists).head?, first.HasBody →
        first.kind.name ≠ name
  ahead : ∀ before hidden, before ++ [hidden] <+: call.candidates →
    hidden ∉ call.slot lists → ∃ method ∈ call.slot lists, method ∈ before

/-! ## What the search finds -/

section Search

variable
  {call : VirtualCall typeSystem cls calleeMD}
  {lists : CLR_RT_TypeDef_Index → CLR_RT_TypeDef_Index → Bool}
  {found : Option CLR_RT_MethodDef_Index}
  {method target : Declaration}

theorem isCallee : IsCallee typeSystem call.calleeInst call.callee := by
  obtain ⟨sameIndex, loaded, record⟩ :=
    CLR_RT_MethodDef_Instance.of_initializeFromIndex call.isMethod
  refine ⟨?_, ?_, call.isDeclared⟩
  · rw [sameIndex, loaded]
  · rw [sameIndex, record]

/-- What is found under a name. -/
theorem named_eq (name : Text) :
    findVirtualMethodDefNamed typeSystem cls call.calleeInst name =
      some (((methodsOf call.classes).filter fun target =>
        decide (call.callee.Answers name target)).head?.map
          Declaration.index) := by
  rw [findVirtualMethodDefNamed_eq call.numbered isCallee call.areClasses,
    List.head?_filter]

/-- The explicit name is not longer than its buffer. -/
def Written (call : VirtualCall typeSystem cls calleeMD) : Prop :=
  ∀ name ∈ call.interfaceName, name.length ≤ maxNameLength

theorem isName :
    call.calleeInst.m_assm.getString call.calleeInst.m_target.name =
      some call.callee.kind.name := by
  obtain ⟨md, _, isRecord, isString, _⟩ := declaration_parts call.isDeclared
  rw [isCallee.record, Option.some.injEq] at isRecord
  rw [isRecord, isString]

/-- The search finds the first candidate. -/
theorem findVirtualMethodDef_eq (written : call.Written) :
    findVirtualMethodDef typeSystem cls calleeMD =
      some (call.candidates.head?.map Declaration.index) := by
  have isInterfaceName := call.isInterfaceName
  rw [findVirtualMethodDef, call.isMethod]
  simp only [Option.bind_eq_bind, Option.bind_some, isName, call.isOwner]
  by_cases isInterface : call.inst.m_target.flags &&& TD_Semantics_Mask =
      TD_Semantics_Interface
  · cases named : call.interfaceName with
    | none =>
        rw [named, explicitName, if_pos isInterface] at isInterfaceName
        obtain ⟨_, _, isInterfaceName⟩ :=
          Option.bind_eq_some_iff.mp isInterfaceName
        cases isInterfaceName
    | some name =>
        rw [named] at isInterfaceName
        rw [if_pos isInterface,
          interfaceMethodName_eq isInterface isInterfaceName,
          if_pos (written name named), candidates, names, named]
        simp only [Option.bind_some, named_eq, List.flatMap_cons,
          List.flatMap_nil, List.append_nil, List.head?_append]
        cases ((methodsOf call.classes).filter fun target => decide
            (call.callee.Answers (name.take (maxNameLength - 1))
              target)).head? with
        | none => rfl
        | some target => rfl
  · rw [explicitName, if_neg isInterface, Option.some.injEq]
      at isInterfaceName
    rw [if_neg isInterface, candidates, names, ← isInterfaceName]
    simp [named_eq]

/-- Behind the buffer the search leaves its result open. -/
theorem written_of_result
    (result : findVirtualMethodDef typeSystem cls calleeMD = some found) :
    call.Written := by
  intro name named
  have isInterfaceName := call.isInterfaceName
  rw [Option.mem_def.mp named] at isInterfaceName
  by_cases isInterface : call.inst.m_target.flags &&& TD_Semantics_Mask =
      TD_Semantics_Interface
  · by_contra long
    rw [findVirtualMethodDef, call.isMethod] at result
    simp only [Option.bind_eq_bind, Option.bind_some, isName, call.isOwner,
      if_pos isInterface] at result
    rw [interfaceMethodName_eq isInterface isInterfaceName, if_neg long]
      at result
    cases result
  · rw [explicitName, if_neg isInterface] at isInterfaceName
    cases isInterfaceName

end Search

end VirtualCall

/-! ## What slots hold -/

section Slots

variable {classes : List DeclaringClass} {method : Declaration}

theorem mem_virtualMethods :
    method ∈ virtualMethods classes ↔
      ∃ cls ∈ classes, method ∈ cls.methods ∧ method.IsVirtual := by
  rw [virtualMethods, List.mem_filter, methodsOf, List.mem_flatMap,
    decide_eq_true_eq]
  constructor
  · rintro ⟨⟨cls, isClass, member⟩, virtual⟩
    exact ⟨cls, isClass, member, virtual⟩
  · rintro ⟨cls, isClass, member, virtual⟩
    exact ⟨⟨cls, isClass, member⟩, virtual⟩

/-- The methods of a slot are of one kind, in the order of the classes. -/
theorem slotIn_spec (member : method ∈ virtualMethods classes) :
    (slotIn classes method).Sublist (methodsOf classes) ∧
      method ∈ slotIn classes method ∧
      ∀ other ∈ slotIn classes method, other.kind = method.kind := by
  have both : slotIn classes method ∈ SlotTable.slotTable Declaration.kind
        Declaration.isNewSlot (virtualMethods classes) ∧
      method ∈ slotIn classes method :=
    SlotTable.slotOf_mem_slotTable member
  obtain ⟨isSlot, isIn⟩ := both
  obtain ⟨first, _, ofKind⟩ := SlotTable.slotTable_oneKind isSlot
  refine ⟨(SlotTable.slotTable_sublist isSlot).trans List.filter_sublist, isIn,
    ?_⟩
  exact fun other isOther =>
    (ofKind other isOther).trans (ofKind method isIn).symm

theorem implementing_spec
    {explicit simple : MethodKind}
    {cls : DeclaringClass}
    (implements : implementing explicit simple cls = some method) :
    method ∈ cls.methods ∧ method.IsVirtual ∧
      (method.kind = explicit ∨ method.kind = simple) := by
  rw [implementing, Option.or_eq_some_iff] at implements
  rcases implements with isExplicit | ⟨_, isSimple⟩
  · have holds := List.find?_some isExplicit
    obtain ⟨virtual, isKind⟩ := of_decide_eq_true holds
    exact ⟨List.mem_of_find?_eq_some isExplicit, virtual, .inl isKind⟩
  · have holds := List.find?_some isSimple
    obtain ⟨virtual, _, isKind⟩ := of_decide_eq_true holds
    exact ⟨List.mem_of_find?_eq_some isSimple, virtual, .inr isKind⟩

theorem interfaceMethod_spec
    {lists : CLR_RT_TypeDef_Index → Bool}
    {explicit simple : MethodKind}
    (implements : interfaceMethod lists explicit simple classes =
      some method) :
    method ∈ virtualMethods classes ∧
      (method.kind = explicit ∨ method.kind = simple) := by
  rw [mem_virtualMethods]
  induction classes with
  | nil => cases implements
  | cons cls bases inductionHypothesis =>
      rw [interfaceMethod] at implements
      split at implements
      case isTrue =>
        obtain ⟨cls, isClass, implements⟩ :=
          List.exists_of_findSome?_eq_some implements
        obtain ⟨member, virtual, isKind⟩ := implementing_spec implements
        exact ⟨⟨cls, isClass, member, virtual⟩, isKind⟩
      case isFalse =>
        obtain ⟨⟨cls, isClass, member⟩, isKind⟩ :=
          inductionHypothesis implements
        exact ⟨⟨cls, List.mem_cons_of_mem _ isClass, member⟩, isKind⟩

end Slots

namespace VirtualCall

section Dispatch

variable
  {typeSystem : CLR_RT_TypeSystem}
  {cls : CLR_RT_TypeDef_Index}
  {calleeMD : CLR_RT_MethodDef_Index}
  {call : VirtualCall typeSystem cls calleeMD}
  {lists : CLR_RT_TypeDef_Index → CLR_RT_TypeDef_Index → Bool}
  {found : Option CLR_RT_MethodDef_Index}
  {method target : Declaration}

/-- The slot that is called holds methods of the classes under one of the two
names. -/
theorem slot_spec :
    call.slot lists = [] ∨ ∃ name,
      (call.interfaceName = some name ∨ name = call.callee.kind.name) ∧
        (call.slot lists).Sublist (methodsOf call.classes) ∧
        ∀ method ∈ call.slot lists,
          method.kind = { call.callee.kind with name } := by
  cases named : call.interfaceName with
  | none =>
      obtain ⟨cls, isClass, member⟩ :=
        List.mem_flatMap.mp (call.declares.mpr named)
      obtain ⟨sublist, _, ofKind⟩ := slotIn_spec
        (mem_virtualMethods.mpr ⟨cls, isClass, member, call.virtual⟩)
      refine .inr ⟨call.callee.kind.name, .inr rfl, ?_⟩
      rw [slot, named]
      exact ⟨sublist, ofKind⟩
  | some name =>
      cases implements : interfaceMethod (lists · call.inst.index)
          { call.callee.kind with name } call.callee.kind call.classes with
      | none =>
          left
          rw [slot, named]
          simp only [implements]
      | some method =>
          obtain ⟨member, isKind⟩ := interfaceMethod_spec implements
          obtain ⟨sublist, _, ofKind⟩ := slotIn_spec member
          have isSlot : call.slot lists = slotIn call.classes method := by
            rw [slot, named]
            simp only [implements]
          rw [isSlot]
          right
          rcases isKind with isExplicit | isSimple
          · rw [isExplicit] at ofKind
            exact ⟨name, .inl rfl, sublist, ofKind⟩
          · rw [isSimple] at ofKind
            exact ⟨call.callee.kind.name, .inr rfl, sublist, ofKind⟩

theorem answers_of_mem_candidates
    (member : target ∈ call.candidates) :
    target ∈ methodsOf call.classes ∧
      ∃ name ∈ call.names, call.callee.Answers name target := by
  obtain ⟨name, isName, member⟩ := List.mem_flatMap.mp member
  obtain ⟨isMethod, answers⟩ := List.mem_filter.mp member
  exact ⟨isMethod, name, isName, of_decide_eq_true answers⟩

/-- The first candidate is the first that answers under any of its names. -/
theorem head?_candidates
    {name : Text}
    (isFirst : call.candidates.head? = some target)
    (isName : name ∈ call.names)
    (answers : call.callee.Answers name target) :
    ((methodsOf call.classes).filter fun target =>
      decide (call.callee.Answers name target)).head? = some target := by
  rw [candidates, List.head?_flatMap] at isFirst
  obtain ⟨other, isOther, isHead⟩ := List.exists_of_findSome?_eq_some isFirst
  obtain ⟨isMethod, otherAnswers⟩ :=
    List.mem_filter.mp (List.mem_of_mem_head? isHead)
  have same : other = name := by
    rcases of_decide_eq_true otherAnswers with rfl | ⟨_, isOtherKind⟩
    · have named := call.declares.mp isMethod
      rw [names, named] at isName isOther
      exact (List.mem_singleton.mp isOther).trans
        (List.mem_singleton.mp isName).symm
    · rcases answers with rfl | ⟨_, isKind⟩
      · have named := call.declares.mp isMethod
        rw [names, named] at isName isOther
        exact (List.mem_singleton.mp isOther).trans
          (List.mem_singleton.mp isName).symm
      · exact congrArg MethodKind.name (isOtherKind.symm.trans isKind)
  rw [← same]
  exact isHead

/-- Where the explicit name is not cut off for an explicit implementation, the
methods of the slot have a name that is looked for. -/
theorem NotHidden.slot_name
    {first : Declaration}
    (notHidden : call.NotHidden lists)
    (isFirst : first ∈ (call.slot lists).head?)
    (body : first.HasBody) :
    ∃ name ∈ call.names, (call.slot lists).Sublist (methodsOf call.classes) ∧
      ∀ method ∈ call.slot lists,
        method.kind = { call.callee.kind with name } := by
  have member := List.mem_of_mem_head? isFirst
  rcases slot_spec with empty | ⟨name, isName, sublist, ofKind⟩
  · rw [empty] at member
    cases member
  · refine ⟨name, ?_, sublist, ofKind⟩
    rw [names]
    rcases isName with isExplicit | rfl
    · simp only [isExplicit]
      rcases notHidden.written name isExplicit with fits | ⟨_, notExplicit⟩
      · rw [List.take_of_length_le (Nat.le_sub_one_of_lt fits)]
        exact List.mem_cons_self
      · exact absurd (congrArg MethodKind.name (ofKind first member))
          (notExplicit first isFirst body)
    · cases call.interfaceName with
      | none => exact List.mem_cons_self
      | some name => exact List.mem_cons_of_mem _ List.mem_cons_self

/-- What has the slot last is the first candidate, if that is in the slot. -/
theorem NotHidden.first_eq
    {first : Declaration}
    (notHidden : call.NotHidden lists)
    (isFirst : first ∈ (call.slot lists).head?)
    (body : first.HasBody)
    (isCandidate : call.candidates.head? = some target)
    (inSlot : target ∈ call.slot lists) : first = target := by
  obtain ⟨name, isName, sublist, ofKind⟩ := notHidden.slot_name isFirst body
  have answers : call.callee.Answers name target := by
    obtain ⟨_, _, _, answers⟩ :=
      answers_of_mem_candidates (List.mem_of_mem_head? isCandidate)
    exact answers.imp_right fun answers => ⟨answers.1, ofKind target inSlot⟩
  have head := head?_candidates isCandidate isName answers
  obtain ⟨others, areCandidates⟩ := List.head?_eq_some_iff.mp head
  obtain ⟨rest, isSlot⟩ := List.head?_eq_some_iff.mp isFirst
  have member := List.mem_of_mem_head? isFirst
  have firstAnswers : call.callee.Answers name first :=
    .inr ⟨body, ofKind first member⟩
  have filtered := sublist.filter fun target =>
    decide (call.callee.Answers name target)
  have distinct := call.once.filter fun target =>
    decide (call.callee.Answers name target)
  have isFiltered : target ∈ (call.slot lists).filter fun target =>
      decide (call.callee.Answers name target) :=
    List.mem_filter.mpr ⟨inSlot, decide_eq_true answers⟩
  rw [isSlot, List.filter_cons_of_pos (by simpa using firstAnswers)]
    at filtered isFiltered
  rw [areCandidates] at filtered distinct
  exact SlotTable.eq_of_sublist distinct filtered isFiltered

/-- A method has less characters than the explicit name of it. -/
theorem length_explicitName
    {name : Text}
    (named : call.interfaceName = some name) :
    call.callee.kind.name.length < name.length := by
  have isInterfaceName := call.isInterfaceName
  rw [named, explicitName] at isInterfaceName
  split at isInterfaceName
  case isTrue =>
    obtain ⟨full, _, isName⟩ := Option.bind_eq_some_iff.mp isInterfaceName
    cases isName
    simp only [List.length_append, dot, List.length_singleton]
    omega
  case isFalse => cases isInterfaceName

/-- No candidate has an explicit name that has been cut off. -/
theorem not_explicit
    {name : Text}
    (named : call.interfaceName = some name)
    (fills : name.length = maxNameLength)
    (isMethod : target ∈ methodsOf call.classes)
    (isAnswer : ∃ name ∈ call.names, call.callee.Answers name target) :
    target.kind.name ≠ name := by
  rintro isExplicit
  obtain ⟨other, isOther, rfl | ⟨_, isKind⟩⟩ := isAnswer
  · have notNamed := call.declares.mp isMethod
    rw [named] at notNamed
    cases notNamed
  · have shorter : other.length < name.length := by
      simp only [names, named, List.mem_cons, List.not_mem_nil, or_false]
        at isOther
      rcases isOther with rfl | rfl
      · rw [List.length_take, fills]
        decide
      · exact length_explicitName named
    rw [← isExplicit, isKind] at shorter
    exact Nat.lt_irrefl _ shorter

theorem NotHidden.dispatches (notHidden : call.NotHidden lists) :
    call.Dispatches lists (call.candidates.head?.map Declaration.index) := by
  have inSlot : ∀ target ∈ call.candidates.head?,
      target ∈ call.slot lists := by
    intro target isCandidate
    by_contra outside
    obtain ⟨others, areCandidates⟩ := List.head?_eq_some_iff.mp isCandidate
    have isStart : [] ++ [target] <+: call.candidates :=
      ⟨others, areCandidates.symm⟩
    obtain ⟨_, _, none_⟩ := notHidden.ahead [] target isStart outside
    cases none_
  refine ⟨findVirtualMethodDef_eq ?_, ?_, ?_⟩
  · intro name named
    rcases notHidden.written name named with fits | ⟨fills, _⟩
    · exact Nat.le_of_lt fits
    · exact Nat.le_of_eq fills
  · intro first isFirst body
    obtain ⟨name, isName, sublist, ofKind⟩ := notHidden.slot_name isFirst body
    have member := List.mem_of_mem_head? isFirst
    have isCandidate : first ∈ call.candidates := by
      refine List.mem_flatMap.mpr ⟨name, isName, List.mem_filter.mpr
        ⟨sublist.mem member, decide_eq_true (.inr ⟨body, ?_⟩)⟩⟩
      exact ofKind first member
    cases isHead : call.candidates.head? with
    | none =>
        rw [List.head?_eq_none_iff.mp isHead] at isCandidate
        cases isCandidate
    | some target =>
        rw [Option.map_some, notHidden.first_eq isFirst body isHead
          (inSlot target isHead)]
  · rintro index isFound
    obtain ⟨target, isCandidate, rfl⟩ := Option.map_eq_some_iff.mp isFound
    exact ⟨target, inSlot target isCandidate, rfl⟩

theorem Dispatches.notHidden (dispatches : call.Dispatches lists found) :
    call.NotHidden lists := by
  have written : call.Written := written_of_result dispatches.result
  have isFound := dispatches.result
  rw [findVirtualMethodDef_eq written, Option.some.injEq] at isFound
  -- What is found is in the slot, so that nothing else comes first.
  have inSlot : ∀ target ∈ call.candidates.head?,
      target ∈ call.slot lists := by
    intro target isCandidate
    rw [Option.mem_def.mp isCandidate, Option.map_some] at isFound
    obtain ⟨method, member, same⟩ :=
      dispatches.inSlot target.index isFound.symm
    obtain ⟨isMethod, _⟩ :=
      answers_of_mem_candidates (List.mem_of_mem_head? isCandidate)
    rcases slot_spec with empty | ⟨_, _, sublist, _⟩
    · rw [empty] at member
      cases member
    · rw [methodsOf_index_injective call.numbered call.areClasses isMethod
        (sublist.mem member) same.symm]
      exact member
  constructor
  · intro name named
    rcases Nat.lt_or_eq_of_le (written name named) with fits | fills
    · exact .inl fits
    · refine .inr ⟨fills, ?_⟩
      intro first isFirst body isExplicit
      have isFirstFound := dispatches.implementation first isFirst body
      rw [← isFound] at isFirstFound
      obtain ⟨target, isCandidate, same⟩ :=
        Option.map_eq_some_iff.mp isFirstFound
      obtain ⟨isMethod, isAnswer⟩ :=
        answers_of_mem_candidates (List.mem_of_mem_head? isCandidate)
      have member := List.mem_of_mem_head? isFirst
      have isSame : target = first := by
        rcases slot_spec with empty | ⟨_, _, sublist, _⟩
        · rw [empty] at member
          cases member
        · exact methodsOf_index_injective call.numbered call.areClasses
            isMethod (sublist.mem member) same
      exact not_explicit named fills isMethod isAnswer
        ((congrArg (fun method => method.kind.name) isSame).trans isExplicit)
  · intro before hidden isStart outside
    cases before with
    | nil =>
        obtain ⟨others, areCandidates⟩ := isStart
        refine absurd (inSlot hidden ?_) outside
        rw [← areCandidates]
        rfl
    | cons target before =>
        obtain ⟨others, areCandidates⟩ := isStart
        refine ⟨target, inSlot target ?_, List.mem_cons_self⟩
        rw [← areCandidates]
        rfl

end Dispatch

end VirtualCall

/-! ## An interface, a class and a subclass -/

/-- An interface `I` with a method `M`, a class that implements it by `I.M` and
has a virtual method `N`, and a subclass with another `N`. -/
def dispatchAssembly (flags : UInt32) : CLR_RT_Assembly where
  m_idx := 1
  typeDefs := [
    {
      name := 3, nameSpace := CLR_EmptyIndex, extends_ := 0xFFFF
      enclosingType := CLR_EmptyIndex, methods_First := 0, vMethods_Num := 1
      iMethods_Num := 0, flags := TD_Semantics_Interface
    },
    {
      name := 4, nameSpace := CLR_EmptyIndex, extends_ := 0xFFFF
      enclosingType := CLR_EmptyIndex, methods_First := 1, vMethods_Num := 2
      iMethods_Num := 0, flags := 0
    },
    {
      name := 5, nameSpace := CLR_EmptyIndex, extends_ := 1
      enclosingType := CLR_EmptyIndex, methods_First := 3, vMethods_Num := 1
      iMethods_Num := 0, flags := 0
    }
  ]
  methodDefs := [
    { name := 0, flags := 0x00000346, numArgs := 1, sig := 0 },
    { name := 1, flags := 0x00000161, numArgs := 1, sig := 0 },
    { name := 2, flags := 0x00000146, numArgs := 1, sig := 0 },
    { name := 2, flags, numArgs := 1, sig := 0 }
  ]
  typeSpecs := []
  signatures := [0, 0, DATATYPE_VOID]
  m_pCrossReference_TypeRef := []
  m_pCrossReference_MethodDef := [0, 1, 1, 2]
  getString := fun index =>
    [[0x4D], [0x49, 0x2E, 0x4D], [0x4E], [0x49], [0x42], [0x44]][index]?

/-- The type system with this assembly only. -/
def dispatchSystem (flags : UInt32) : CLR_RT_TypeSystem where
  m_assemblies := [some (dispatchAssembly flags)]
  g_CLR_RT_WellKnownTypes := default

theorem dispatchSystem_numbered (flags : UInt32) :
    Numbered (dispatchSystem flags) where
  m_idx := by
    intro slot assm isAssembly
    cases slot with
    | zero => cases isAssembly
    | succ slot =>
        cases slot with
        | zero =>
            cases isAssembly
            exact ⟨rfl, by decide, Nat.le_of_ble_eq_true rfl⟩
        | succ slot => cases isAssembly

/-- What the methods of the assembly are declared as. -/
def dispatchDeclaration (flags : UInt32) (method : Nat) (name : Text) :
    Declaration where
  index := ⟨setIndex 1 (.ofNat method)⟩
  flags
  kind := ⟨name, 1, 0, [⟨false, 0, DATATYPE_VOID, ⟨0⟩⟩]⟩

/-- The subclass and its base. -/
def dispatchClasses (flags : UInt32) : List DeclaringClass :=
  [
    ⟨⟨0x10002⟩, [dispatchDeclaration flags 3 [0x4E]]⟩,
    ⟨⟨0x10001⟩, [dispatchDeclaration 0x161 1 [0x49, 0x2E, 0x4D],
      dispatchDeclaration 0x146 2 [0x4E]]⟩
  ]

theorem notHidden_of_inSlot
    {typeSystem : CLR_RT_TypeSystem}
    {cls : CLR_RT_TypeDef_Index}
    {calleeMD : CLR_RT_MethodDef_Index}
    {call : VirtualCall typeSystem cls calleeMD}
    {lists : CLR_RT_TypeDef_Index → CLR_RT_TypeDef_Index → Bool}
    (fits : ∀ name ∈ call.interfaceName, name.length < maxNameLength)
    (inSlot : ∀ target ∈ call.candidates, target ∈ call.slot lists) :
    call.NotHidden lists where
  written := fun name named => .inl (fits name named)
  ahead := by
    intro before hidden isStart outside
    refine absurd (inSlot hidden (isStart.mem ?_)) outside
    exact List.mem_append_right _ (List.mem_singleton_self hidden)

/-- The calls for the subclass, of `N` and of the method of the interface. -/
theorem exists_dispatchCalls
    {flags : UInt32}
    (areClasses : classesOf (dispatchSystem flags) ⟨0x10002⟩ =
      some (dispatchClasses flags))
    (once : (methodsOf (dispatchClasses flags)).Nodup)
    (isDeclared : dispatchDeclaration 0x346 0 [0x4D] ∉
      methodsOf (dispatchClasses flags)) :
    (∃ call : VirtualCall (dispatchSystem flags) ⟨0x10002⟩ ⟨0x10002⟩,
      call.classes = dispatchClasses flags ∧
        call.callee = dispatchDeclaration 0x146 2 [0x4E] ∧
        call.interfaceName = none) ∧
      ∃ call : VirtualCall (dispatchSystem flags) ⟨0x10002⟩ ⟨0x10000⟩,
        call.classes = dispatchClasses flags ∧
          call.callee = dispatchDeclaration 0x346 0 [0x4D] ∧
          call.interfaceName = some [0x49, 0x2E, 0x4D] := by
  have classBits : ¬ (0 : UInt16) &&& TD_Semantics_Mask =
      TD_Semantics_Interface := by decide
  have interfaceBits : TD_Semantics_Interface &&& TD_Semantics_Mask =
      TD_Semantics_Interface := by decide
  have isN : CLR_RT_MethodDef_Index.Method ⟨0x10002⟩ = 2 := by decide
  have isM : CLR_RT_MethodDef_Index.Method ⟨0x10000⟩ = 0 := by decide
  constructor
  · obtain ⟨inst, isOwner, isInterfaceName⟩ :
        ∃ inst, CLR_RT_TypeDef_Instance.initializeFromMethod
            ⟨⟨0x10002⟩, dispatchAssembly flags, ⟨2, 0x146, 1, 0⟩⟩ =
              some inst ∧
          explicitName inst [0x4E] = some none := by
      simp only [CLR_RT_TypeDef_Instance.initializeFromMethod, isN]
      refine ⟨_, rfl, ?_⟩
      rw [explicitName, if_neg]
      exact classBits
    refine ⟨{
      calleeInst := ⟨⟨0x10002⟩, dispatchAssembly flags, ⟨2, 0x146, 1, 0⟩⟩
      inst
      classes := dispatchClasses flags
      callee := dispatchDeclaration 0x146 2 [0x4E]
      interfaceName := none
      numbered := dispatchSystem_numbered flags
      isMethod := rfl
      isOwner
      isDeclared := by
        rw [isN]
        rfl
      areClasses
      isInterfaceName
      virtual := by decide
      once
      declares := ?_ }, rfl, rfl, rfl⟩
    simp [dispatchClasses, methodsOf]
  · obtain ⟨inst, isOwner, isInterfaceName⟩ :
        ∃ inst, CLR_RT_TypeDef_Instance.initializeFromMethod
            ⟨⟨0x10000⟩, dispatchAssembly flags, ⟨0, 0x346, 1, 0⟩⟩ =
              some inst ∧
          explicitName inst [0x4D] = some (some [0x49, 0x2E, 0x4D]) := by
      simp only [CLR_RT_TypeDef_Instance.initializeFromMethod, isM]
      refine ⟨_, rfl, ?_⟩
      rw [explicitName, if_pos]
      · rfl
      · exact interfaceBits
    refine ⟨{
      calleeInst := ⟨⟨0x10000⟩, dispatchAssembly flags, ⟨0, 0x346, 1, 0⟩⟩
      inst
      classes := dispatchClasses flags
      callee := dispatchDeclaration 0x346 0 [0x4D]
      interfaceName := some [0x49, 0x2E, 0x4D]
      numbered := dispatchSystem_numbered flags
      isMethod := rfl
      isOwner
      isDeclared := by
        rw [isM]
        rfl
      areClasses
      isInterfaceName
      virtual := by decide
      once
      declares := ?_ }, rfl, rfl, rfl⟩
    simp [isDeclared]

end TypeSystem

end NanoClr
