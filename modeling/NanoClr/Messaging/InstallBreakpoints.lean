import NanoClr.Messaging.Packets

/-!
# Installing breakpoints

`Debugging_Execution_Breakpoints`, `InstallBreakpoints` and the marks of the
methods that hard breakpoints name.
-/

namespace NanoClr

namespace Messaging

open TypeSystem

/-! ## Marks -/

variable {σ : Type}

/-- Sets or clears the mark of a method. -/
def MethodTables.SetBreakpoint (tables : MethodTables)
    (method : CLR_RT_MethodDef_Index) (fSet : Bool) : MethodTables :=
  match method.Assembly with
  | 0 => tables
  | slot + 1 =>
      tables.modify slot fun assembly =>
        assembly.map fun methods =>
          methods.modify method.Method fun info => info.SetBreakpoint fSet

/-- The definition is of a hard breakpoint of a valid index. -/
def Debugging_Execution_BreakpointDef.Marks
    (definition : Debugging_Execution_BreakpointDef) : Bool :=
  definition.m_flags &&& c_HARD != 0 && definition.m_md.m_data != 0

/-- The marks of the methods that definitions name, and the accesses to
them. -/
def setMarks (fSet : Bool) :
    List Debugging_Execution_BreakpointDef → MethodTables →
      MethodTables × List Access
  | [], tables => (tables, [])
  | definition :: rest, tables =>
      if definition.Marks then
        let (later, accesses) :=
          setMarks fSet rest (tables.SetBreakpoint definition.m_md fSet)
        (later, .debuggingInfo definition.m_md :: accesses)
      else
        setMarks fSet rest tables

/-- `SetDebuggingInfoBreakpoints`: the methods that the installed definitions
name are marked, or lose their marks. -/
def SetDebuggingInfoBreakpoints (runtime : Runtime σ) (fSet : Bool) :
    Runtime σ × List Access :=
  let (tables, accesses) :=
    setMarks fSet runtime.breakpoints runtime.m_pDebuggingInfo_MethodDef
  ({ runtime with m_pDebuggingInfo_MethodDef := tables }, accesses)

/-! ## Threads -/

/-- A step is asked for at this depth of the thread. -/
def stepsAt (definitions : List Debugging_Execution_BreakpointDef)
    (th : CLR_RT_Thread) (depth : UInt32) : Bool :=
  definitions.any fun definition =>
    definition.m_flags &&& c_STEP != 0 && definition.m_pid == th.m_pid &&
      definition.m_depth == depth

/-- A stack frame has a breakpoint when its method or an inlined one carries the
mark, or a step of the thread ends there. -/
def prepareFrame (tables : MethodTables)
    (definitions : List Debugging_Execution_BreakpointDef)
    (th : CLR_RT_Thread) (call : CLR_RT_StackFrame) : CLR_RT_StackFrame :=
  { call with
    c_HasBreakpoint :=
      tables.HasBreakpoint call.m_call ||
        stepsAt definitions th call.m_depth ||
        call.m_inlineFrame_m_call.any fun inlined =>
          tables.HasBreakpoint inlined ||
            stepsAt definitions th (call.m_depth - 1) }

/-- `Breakpoint_Threads_Prepare`. -/
def Breakpoint_Threads_Prepare (tables : MethodTables)
    (definitions : List Debugging_Execution_BreakpointDef)
    (threads : List CLR_RT_Thread) : List CLR_RT_Thread :=
  threads.map fun th =>
    { th with
      m_fHasJMCStepper :=
        definitions.any fun definition =>
          definition.m_flags &&& c_STEP_JMC != 0 &&
            definition.m_pid == th.m_pid
      m_stackFrames :=
        th.m_stackFrames.map (prepareFrame tables definitions th) }

/-! ## The handler -/

variable (heap : EventHeap σ)

/-- Frees the definitions that are installed. -/
def releaseBreakpoints (runtime : Runtime σ) : Runtime σ :=
  match runtime.m_breakpoints with
  | none => runtime
  | some installed =>
      { runtime with
        memory := runtime.memory.Release heap installed.address
        m_breakpoints := none }

/-- Copies `num` definitions from the offset `data` of the payload on. -/
def copyBreakpoints (runtime : Runtime σ) (payload : Nat → UInt8)
    (data : Nat) (num : UInt32) : Runtime σ × List Access :=
  if num = 0 then
    (runtime, [])
  else
    let len := num * sizeofBreakpointDef
    let (block, memory) := runtime.memory.Allocate heap len
    match block with
    | none => ({ runtime with memory := memory }, [])
    | some block =>
        ({ runtime with
            memory := memory
            m_breakpoints :=
              some
                { address := block.address
                  definitions := (List.range num.toNat).map fun index =>
                    breakpointDefAt payload
                      (data + index * sizeofBreakpointDef.toNat) } },
          [.payload data len.toNat, .block block.capacity 0 len.toNat])

/-- `InstallBreakpoints`: the old marks are cleared, the definitions are copied,
and the new marks are set. -/
def InstallBreakpoints (runtime : Runtime σ) (payload : Nat → UInt8)
    (data : Nat) (num : UInt32) : Runtime σ × List Access :=
  let (cleared, clears) := SetDebuggingInfoBreakpoints runtime false
  let (copied, copies) :=
    copyBreakpoints heap (releaseBreakpoints heap cleared) payload data num
  let (later, sets) := SetDebuggingInfoBreakpoints copied true
  ({ later with
      m_threadsReady :=
        Breakpoint_Threads_Prepare later.m_pDebuggingInfo_MethodDef
          later.breakpoints later.m_threadsReady
      m_threadsWaiting :=
        Breakpoint_Threads_Prepare later.m_pDebuggingInfo_MethodDef
          later.breakpoints later.m_threadsWaiting },
    clears ++ copies ++ sets)

/-- The bytes of the flags in front of the definitions. -/
def sizeofFlags : UInt32 := 4

/-- The number of definitions the handler computes. -/
def definitionCount (m_size : UInt32) : UInt32 :=
  (m_size - sizeofFlags) / sizeofBreakpointDef

/-- `Debugging_Execution_Breakpoints`: the definitions behind the flags are
installed. -/
def Debugging_Execution_Breakpoints (runtime : Runtime σ) (msg : Packet) :
    Handled σ :=
  let (later, accesses) :=
    InstallBreakpoints heap runtime msg.m_payload sizeofFlags.toNat
      (definitionCount msg.m_size)
  { runtime := later
    accesses := accesses
    reply := { fSuccess := true, m_found_m_addr := none } }

/-! ## What it is for -/

/-- The complete definitions a payload contains. -/
def completeDefinitions (packet : Packet) :
    List Debugging_Execution_BreakpointDef :=
  (List.range
    ((packet.m_size.toNat - sizeofFlags.toNat) /
      sizeofBreakpointDef.toNat)).map fun index =>
    breakpointDefAt packet.m_payload
      (sizeofFlags.toNat + index * sizeofBreakpointDef.toNat)

/-- The hard breakpoints among the definitions name methods that exist. -/
def NameMethods (tables : MethodTables)
    (definitions : List Debugging_Execution_BreakpointDef) : Prop :=
  ∀ definition ∈ definitions, definition.Marks →
    (tables.DebuggingInfo definition.m_md).isSome

/-- A hard breakpoint among the definitions names the method. -/
def Named (definitions : List Debugging_Execution_BreakpointDef)
    (method : CLR_RT_MethodDef_Index) : Prop :=
  ∃ definition ∈ definitions, definition.Marks ∧ definition.m_md = method

/-- A method carries the mark exactly where an installed hard breakpoint names
it. -/
def MarksExact (runtime : Runtime σ) : Prop :=
  ∀ method, (runtime.m_pDebuggingInfo_MethodDef.DebuggingInfo method).isSome →
    (runtime.m_pDebuggingInfo_MethodDef.HasBreakpoint method ↔
      Named runtime.breakpoints method)

/-- Either no block is asked for or granted, or the payload is not shorter than
the flags, the length of the block does not wrap around, and the hard
breakpoints name methods that exist. -/
def BreakpointsFit (runtime : Runtime σ) (packet : Packet) : Prop :=
  let memory := (releaseBreakpoints heap runtime).memory
  let len := definitionCount packet.m_size * sizeofBreakpointDef
  definitionCount packet.m_size = 0 ∨ ¬ memory.Grants heap len ∨
    sizeofFlags ≤ packet.m_size ∧ memory.Holds len.toNat 0 ∧
      NameMethods runtime.m_pDebuggingInfo_MethodDef
        (completeDefinitions packet)

/-! ## A mark -/

@[simp]
theorem hasBreakpoint_setBreakpoint
    (info : CLR_RT_MethodDef_DebuggingInfo)
    (fSet : Bool) :
    (info.SetBreakpoint fSet).HasBreakpoint = fSet := by
  unfold CLR_RT_MethodDef_DebuggingInfo.HasBreakpoint
    CLR_RT_MethodDef_DebuggingInfo.SetBreakpoint MD_DI_HasBreakpoint
  cases fSet with
  | true =>
      have isSet : (info.m_flags ||| 0x02) &&& 0x02 = (0x02 : UInt8) := by
        rw [← UInt8.toBitVec_inj]
        ext bit
        simp
        grind
      simp [isSet]
  | false =>
      have isClear : info.m_flags &&& ~~~0x02 &&& 0x02 = (0 : UInt8) := by
        rw [UInt8.and_assoc]
        simp
      simp [isClear]

/-- Indices are the same where both halves are. -/
theorem method_ext
    {method other : CLR_RT_MethodDef_Index}
    (sameAssembly : method.Assembly = other.Assembly)
    (sameMethod : method.Method = other.Method) :
    method = other := by
  rw [CLR_RT_MethodDef_Index.Assembly, CLR_RT_MethodDef_Index.Assembly,
    highHalf_eq, highHalf_eq] at sameAssembly
  rw [CLR_RT_MethodDef_Index.Method, CLR_RT_MethodDef_Index.Method,
    lowHalf_eq, lowHalf_eq] at sameMethod
  have same : method.m_data.toNat = other.m_data.toNat := by
    omega
  cases method
  cases other
  exact congrArg _ (UInt32.toNat_inj.mp same)

/-- Looking up what was changed at one place of one table. -/
theorem getElem?_modify_modify
    {α : Type}
    (tables : List (Option (List α)))
    (slot other index otherIndex : Nat)
    (f : α → α) :
    ((tables.modify slot fun assembly =>
        assembly.map (·.modify index f))[other]?.join.bind
          fun methods => methods[otherIndex]?) =
      if slot = other ∧ index = otherIndex then
        (tables[other]?.join.bind fun methods => methods[otherIndex]?).map f
      else
        tables[other]?.join.bind fun methods => methods[otherIndex]? := by
  rw [List.getElem?_modify]
  cases tables[other]? with
  | none => simp
  | some assembly =>
      cases assembly with
      | none => simp
      | some methods =>
          by_cases sameSlot : slot = other
          · simp only [sameSlot, true_and, ↓reduceIte, Option.map_eq_map,
              Option.map_some, Option.join_some, Option.bind_some,
              List.getElem?_modify]
            split
            · rfl
            · simp
          · simp [sameSlot]

/-- Setting a mark changes the debugging information of its method only. -/
theorem debuggingInfo_setBreakpoint
    (tables : MethodTables)
    (method other : CLR_RT_MethodDef_Index)
    (fSet : Bool) :
    (tables.SetBreakpoint method fSet).DebuggingInfo other =
      if other = method then
        (tables.DebuggingInfo other).map (·.SetBreakpoint fSet)
      else
        tables.DebuggingInfo other := by
  unfold MethodTables.SetBreakpoint MethodTables.DebuggingInfo
  cases isAssembly : method.Assembly with
  | zero =>
      by_cases same : other = method
      · rw [same, isAssembly]
        simp
      · rw [if_neg same]
  | succ slot =>
      cases isOther : other.Assembly with
      | zero =>
          simp
      | succ otherSlot =>
          dsimp only
          rw [getElem?_modify_modify]
          by_cases same : other = method
          · subst same
            rw [isAssembly] at isOther
            rw [if_pos rfl, if_pos ⟨Nat.succ.inj isOther, rfl⟩]
          · rw [if_neg same, if_neg]
            rintro ⟨sameSlot, sameMethod⟩
            apply same
            exact method_ext (by rw [isAssembly, isOther, sameSlot])
              sameMethod.symm

theorem isSome_setBreakpoint
    (tables : MethodTables)
    (method other : CLR_RT_MethodDef_Index)
    (fSet : Bool) :
    ((tables.SetBreakpoint method fSet).DebuggingInfo other).isSome =
      (tables.DebuggingInfo other).isSome := by
  rw [debuggingInfo_setBreakpoint]
  split <;> simp

/-! ## Many marks -/

section Marks

variable {definitions : List Debugging_Execution_BreakpointDef}
  {definition : Debugging_Execution_BreakpointDef}
  {tables : MethodTables} {fSet : Bool} {method : CLR_RT_MethodDef_Index}

theorem named_cons :
    Named (definition :: definitions) method ↔
      definition.Marks ∧ definition.m_md = method ∨
        Named definitions method := by
  unfold Named
  simp only [List.mem_cons, exists_eq_or_imp]

theorem setMarks_isSome :
    ((setMarks fSet definitions tables).1.DebuggingInfo method).isSome =
      (tables.DebuggingInfo method).isSome := by
  induction definitions generalizing tables with
  | nil => rfl
  | cons definition rest inductionHypothesis =>
      rw [setMarks]
      split
      · dsimp only
        rw [inductionHypothesis, isSome_setBreakpoint]
      · exact inductionHypothesis

/-- Methods that no definition names keep their mark. -/
theorem setMarks_other
    (unnamed : ¬ Named definitions method) :
    (setMarks fSet definitions tables).1.DebuggingInfo method =
      tables.DebuggingInfo method := by
  induction definitions generalizing tables with
  | nil => rfl
  | cons definition rest inductionHypothesis =>
      rw [named_cons, not_or] at unnamed
      rw [setMarks]
      split
      case isTrue marks =>
        dsimp only
        rw [inductionHypothesis unnamed.2, debuggingInfo_setBreakpoint,
          if_neg fun same => unnamed.1 ⟨marks, same.symm⟩]
      case isFalse =>
        exact inductionHypothesis unnamed.2

/-- Methods that a definition names have the new mark. -/
theorem setMarks_named
    (named : Named definitions method)
    (isMethod : (tables.DebuggingInfo method).isSome) :
    (setMarks fSet definitions tables).1.HasBreakpoint method = fSet := by
  induction definitions generalizing tables with
  | nil =>
      obtain ⟨_, member, _⟩ := named
      cases member
  | cons definition rest inductionHypothesis =>
      rw [setMarks]
      by_cases later : Named rest method
      · split
        · exact inductionHypothesis later
            (by rw [isSome_setBreakpoint]; exact isMethod)
        · exact inductionHypothesis later isMethod
      · obtain ⟨marks, rfl⟩ := (named_cons.mp named).resolve_right later
        rw [if_pos marks]
        dsimp only
        obtain ⟨info, isInfo⟩ := Option.isSome_iff_exists.mp isMethod
        rw [MethodTables.HasBreakpoint, setMarks_other later,
          debuggingInfo_setBreakpoint, if_pos rfl, isInfo]
        exact hasBreakpoint_setBreakpoint info fSet

/-- The methods that are accessed are the named ones. -/
theorem setMarks_accesses
    {access : Access} :
    access ∈ (setMarks fSet definitions tables).2 ↔
      ∃ definition ∈ definitions, definition.Marks ∧
        access = .debuggingInfo definition.m_md := by
  induction definitions generalizing tables with
  | nil => simp [setMarks]
  | cons definition rest inductionHypothesis =>
      rw [setMarks]
      split
      case isTrue marks =>
        simp only [List.mem_cons, inductionHypothesis, exists_eq_or_imp,
          marks, true_and]
      case isFalse unmarked =>
        rw [inductionHypothesis]
        simp [unmarked]

end Marks

/-! ## The steps of an installation -/

section Steps

variable {heap} {runtime : Runtime σ} {packet : Packet}
  {payload : Nat → UInt8} {data : Nat} {num : UInt32}

/-- What is copied for a packet, once the old definitions are freed. -/
def copiedFor (heap : EventHeap σ) (runtime : Runtime σ) (packet : Packet) :
    Runtime σ × List Access :=
  copyBreakpoints heap (releaseBreakpoints heap runtime) packet.m_payload
    sizeofFlags.toNat (definitionCount packet.m_size)

theorem releaseBreakpoints_breakpoints :
    (releaseBreakpoints heap runtime).m_breakpoints = none := by
  unfold releaseBreakpoints
  cases isInstalled : runtime.m_breakpoints with
  | none => exact isInstalled
  | some installed => rfl

theorem releaseBreakpoints_tables (tables : MethodTables) :
    releaseBreakpoints heap
        { runtime with m_pDebuggingInfo_MethodDef := tables } =
      { releaseBreakpoints heap runtime with
        m_pDebuggingInfo_MethodDef := tables } := by
  obtain ⟨memory, endPoints, events, methods, installed, ready, waiting⟩ :=
    runtime
  cases installed with
  | none => rfl
  | some installed => rfl

theorem copyBreakpoints_tables (tables : MethodTables) :
    copyBreakpoints heap
        { runtime with m_pDebuggingInfo_MethodDef := tables } payload data
          num =
      ({ (copyBreakpoints heap runtime payload data num).1 with
          m_pDebuggingInfo_MethodDef := tables },
        (copyBreakpoints heap runtime payload data num).2) := by
  unfold copyBreakpoints
  split
  · rfl
  · dsimp only
    split <;> rfl

theorem releaseBreakpoints_endPoints :
    (releaseBreakpoints heap runtime).m_endPoints = runtime.m_endPoints := by
  unfold releaseBreakpoints
  split <;> rfl

theorem copyBreakpoints_endPoints :
    (copyBreakpoints heap runtime payload data num).1.m_endPoints =
      runtime.m_endPoints := by
  unfold copyBreakpoints
  split
  · rfl
  · dsimp only
    split <;> rfl

/-- The old marks are cleared before the new definitions set theirs. -/
theorem breakpoints_tables :
    (Debugging_Execution_Breakpoints heap runtime
        packet).runtime.m_pDebuggingInfo_MethodDef =
      (setMarks true (copiedFor heap runtime packet).1.breakpoints
        (setMarks false runtime.breakpoints
          runtime.m_pDebuggingInfo_MethodDef).1).1 := by
  unfold Debugging_Execution_Breakpoints InstallBreakpoints
    SetDebuggingInfoBreakpoints copiedFor
  simp only [releaseBreakpoints_tables, copyBreakpoints_tables]
  rfl

theorem breakpoints_accesses :
    (Debugging_Execution_Breakpoints heap runtime packet).accesses =
      (setMarks false runtime.breakpoints
          runtime.m_pDebuggingInfo_MethodDef).2 ++
        (copiedFor heap runtime packet).2 ++
          (setMarks true (copiedFor heap runtime packet).1.breakpoints
            (setMarks false runtime.breakpoints
              runtime.m_pDebuggingInfo_MethodDef).1).2 := by
  unfold Debugging_Execution_Breakpoints InstallBreakpoints
    SetDebuggingInfoBreakpoints copiedFor
  simp only [releaseBreakpoints_tables, copyBreakpoints_tables]
  rfl

theorem breakpoints_installed :
    (Debugging_Execution_Breakpoints heap runtime
        packet).runtime.breakpoints =
      (copiedFor heap runtime packet).1.breakpoints := by
  unfold Debugging_Execution_Breakpoints InstallBreakpoints
    SetDebuggingInfoBreakpoints copiedFor
  simp only [releaseBreakpoints_tables, copyBreakpoints_tables]
  rfl

theorem breakpoints_endPoints :
    (Debugging_Execution_Breakpoints heap runtime
        packet).runtime.m_endPoints = runtime.m_endPoints := by
  unfold Debugging_Execution_Breakpoints InstallBreakpoints
    SetDebuggingInfoBreakpoints
  dsimp only
  rw [copyBreakpoints_endPoints, releaseBreakpoints_endPoints]

/-- The marks are exact again after an installation. -/
theorem breakpoints_marksExact
    (exact : MarksExact runtime) :
    MarksExact
      (Debugging_Execution_Breakpoints heap runtime packet).runtime := by
  intro method isMethod
  rw [breakpoints_tables] at isMethod ⊢
  rw [breakpoints_installed]
  rw [setMarks_isSome] at isMethod
  have isOld := isMethod
  rw [setMarks_isSome] at isOld
  have cleared : (setMarks false runtime.breakpoints
      runtime.m_pDebuggingInfo_MethodDef).1.HasBreakpoint method = false := by
    by_cases named : Named runtime.breakpoints method
    · exact setMarks_named named isOld
    · have unmarked := (not_congr (exact method isOld)).mpr named
      rw [MethodTables.HasBreakpoint] at unmarked ⊢
      rw [setMarks_other named]
      simpa using unmarked
  by_cases named : Named (copiedFor heap runtime packet).1.breakpoints method
  · simp only [setMarks_named named isMethod, named]
  · rw [MethodTables.HasBreakpoint, setMarks_other named]
    rw [MethodTables.HasBreakpoint] at cleared
    simp [cleared, named]

/-! ## What is copied -/

theorem copiedFor_none
    (refused : definitionCount packet.m_size = 0 ∨
      ¬ (releaseBreakpoints heap runtime).memory.Grants heap
        (definitionCount packet.m_size * sizeofBreakpointDef)) :
    (copiedFor heap runtime packet).1.breakpoints = [] ∧
      (copiedFor heap runtime packet).2 = [] := by
  unfold copiedFor copyBreakpoints
  by_cases isEmpty : definitionCount packet.m_size = 0
  · rw [if_pos isEmpty, Runtime.breakpoints, releaseBreakpoints_breakpoints]
    exact ⟨rfl, rfl⟩
  · rw [if_neg isEmpty]
    have none := CLR_RT_Memory.allocate_none (refused.resolve_left isEmpty)
    simp only [none, Runtime.breakpoints, releaseBreakpoints_breakpoints]
    exact ⟨rfl, trivial⟩

/-- The definitions the handler copies. -/
def copiedDefinitions (packet : Packet) :
    List Debugging_Execution_BreakpointDef :=
  (List.range (definitionCount packet.m_size).toNat).map fun index =>
    breakpointDefAt packet.m_payload
      (sizeofFlags.toNat + index * sizeofBreakpointDef.toNat)

theorem copiedFor_some
    (asked : definitionCount packet.m_size ≠ 0)
    {block : Block}
    (allocated : ((releaseBreakpoints heap runtime).memory.Allocate heap
      (definitionCount packet.m_size * sizeofBreakpointDef)).1 =
        some block) :
    (copiedFor heap runtime packet).1.breakpoints =
        copiedDefinitions packet ∧
      (copiedFor heap runtime packet).2 =
        [.payload sizeofFlags.toNat
            (definitionCount packet.m_size * sizeofBreakpointDef).toNat,
          .block block.capacity 0
            (definitionCount packet.m_size * sizeofBreakpointDef).toNat] := by
  unfold copiedFor copyBreakpoints
  simp only [if_neg asked, allocated]
  exact ⟨rfl, trivial⟩

theorem toNat_definitionCount_mul :
    (definitionCount packet.m_size * sizeofBreakpointDef).toNat =
      (definitionCount packet.m_size).toNat * 36 := by
  rw [definitionCount, UInt32.toNat_mul, UInt32.toNat_div]
  have bound := (packet.m_size - sizeofFlags).toNat_lt
  simp only [sizeofBreakpointDef, UInt32.reduceToNat]
  omega

theorem copiedDefinitions_eq
    (complete : sizeofFlags ≤ packet.m_size) :
    copiedDefinitions packet = completeDefinitions packet := by
  rw [copiedDefinitions, completeDefinitions, definitionCount,
    UInt32.toNat_div, UInt32.toNat_sub_of_le _ _ complete]

/-- The block for the definitions holds them exactly where no length wraps
around. -/
theorem definitions_hold
    (asked : definitionCount packet.m_size ≠ 0)
    {block : Block}
    (allocated : ((releaseBreakpoints heap runtime).memory.Allocate heap
      (definitionCount packet.m_size * sizeofBreakpointDef)).1 =
        some block) :
    (definitionCount packet.m_size * sizeofBreakpointDef).toNat ≤
        block.capacity ↔
      (releaseBreakpoints heap runtime).memory.Holds
        (definitionCount packet.m_size * sizeofBreakpointDef).toNat 0 := by
  have bound :=
    (definitionCount packet.m_size * sizeofBreakpointDef).toNat_lt
  have positive : (definitionCount packet.m_size).toNat ≠ 0 := by
    intro isZero
    exact asked (UInt32.toNat_inj.mp isZero)
  have length : (definitionCount packet.m_size * sizeofBreakpointDef).toNat =
      (definitionCount packet.m_size).toNat * 36 :=
    toNat_definitionCount_mul
  apply CLR_RT_Memory.allocate_holds _ _ _ _ allocated
  · omega
  · omega
  · omega
  · omega

/-! ## Exactly the packets that fit are handled safely -/

/-- The installed hard breakpoints name methods that exist. -/
def InstalledNamed (runtime : Runtime σ) : Prop :=
  NameMethods runtime.m_pDebuggingInfo_MethodDef runtime.breakpoints

theorem breakpoints_confined_iff
    (installed : InstalledNamed runtime) :
    (∀ access ∈
        (Debugging_Execution_Breakpoints heap runtime packet).accesses,
      access.Confined packet.m_size runtime.m_pDebuggingInfo_MethodDef) ↔
      BreakpointsFit heap runtime packet := by
  rw [breakpoints_accesses, BreakpointsFit]
  simp only [List.mem_append, or_imp, forall_and]
  have clears : ∀ access ∈ (setMarks false runtime.breakpoints
      runtime.m_pDebuggingInfo_MethodDef).2,
      access.Confined packet.m_size runtime.m_pDebuggingInfo_MethodDef := by
    intro access member
    obtain ⟨definition, isInstalled, marks, rfl⟩ :=
      setMarks_accesses.mp member
    exact installed definition isInstalled marks
  by_cases refused : definitionCount packet.m_size = 0 ∨
      ¬ (releaseBreakpoints heap runtime).memory.Grants heap
        (definitionCount packet.m_size * sizeofBreakpointDef)
  · obtain ⟨empty, silent⟩ := copiedFor_none refused
    rw [empty, silent]
    apply iff_of_true
    · exact ⟨⟨clears, by simp⟩, by simp [setMarks]⟩
    · rw [← or_assoc]
      exact .inl refused
  · rw [← or_assoc, or_iff_right refused]
    rw [not_or, not_not] at refused
    obtain ⟨asked, granted⟩ := refused
    obtain ⟨block, allocated⟩ := CLR_RT_Memory.allocate_some granted
    obtain ⟨copied, copies⟩ := copiedFor_some asked allocated
    have length : (definitionCount packet.m_size *
        sizeofBreakpointDef).toNat =
          (definitionCount packet.m_size).toNat * 36 :=
      toNat_definitionCount_mul
    rw [copied, copies]
    constructor
    · rintro ⟨⟨_, copies⟩, sets⟩
      have payload : sizeofFlags.toNat + _ ≤ packet.m_size.toNat :=
        copies _ List.mem_cons_self
      have complete : sizeofFlags ≤ packet.m_size :=
        Nat.le_trans (Nat.le_add_right _ _) payload
      have inside : 0 + _ ≤ block.capacity :=
        copies _ (List.mem_cons_of_mem _ List.mem_cons_self)
      rw [Nat.zero_add] at inside
      refine ⟨complete, (definitions_hold asked allocated).mp inside, ?_⟩
      rw [← copiedDefinitions_eq complete]
      intro definition member marks
      exact sets _ (setMarks_accesses.mpr ⟨definition, member, marks, rfl⟩)
    · rintro ⟨complete, holds, named⟩
      refine ⟨⟨clears, ?_⟩, ?_⟩
      · intro access member
        rw [List.mem_cons, List.mem_singleton] at member
        cases member with
        | inl isPayload =>
            subst isPayload
            show sizeofFlags.toNat + _ ≤ packet.m_size.toNat
            have flags : sizeofFlags.toNat ≤ packet.m_size.toNat := complete
            rw [length, definitionCount, UInt32.toNat_div,
              UInt32.toNat_sub_of_le _ _ complete]
            simp only [sizeofFlags, sizeofBreakpointDef,
              UInt32.reduceToNat] at flags ⊢
            omega
        | inr isBlock =>
            subst isBlock
            show 0 + _ ≤ block.capacity
            rw [Nat.zero_add]
            exact (definitions_hold asked allocated).mpr holds
      · intro access member
        obtain ⟨definition, isCopied, marks, rfl⟩ :=
          setMarks_accesses.mp member
        rw [copiedDefinitions_eq complete] at isCopied
        exact named definition isCopied marks

/-- The array is empty or holds the complete definitions. -/
theorem breakpoints_complete
    (fits : BreakpointsFit heap runtime packet) :
    (Debugging_Execution_Breakpoints heap runtime packet).runtime.breakpoints =
        [] ∨
      (Debugging_Execution_Breakpoints heap runtime
        packet).runtime.breakpoints = completeDefinitions packet := by
  rw [breakpoints_installed]
  by_cases refused : definitionCount packet.m_size = 0 ∨
      ¬ (releaseBreakpoints heap runtime).memory.Grants heap
        (definitionCount packet.m_size * sizeofBreakpointDef)
  · exact .inl (copiedFor_none refused).1
  · rw [BreakpointsFit, ← or_assoc, or_iff_right refused] at fits
    rw [not_or, not_not] at refused
    obtain ⟨block, allocated⟩ := CLR_RT_Memory.allocate_some refused.2
    rw [(copiedFor_some refused.1 allocated).1, copiedDefinitions_eq fits.1]
    exact .inr rfl

/-- The methods of the installed definitions exist. -/
theorem breakpoints_installedNamed
    (fits : BreakpointsFit heap runtime packet) :
    InstalledNamed
      (Debugging_Execution_Breakpoints heap runtime packet).runtime := by
  intro definition member marks
  rw [breakpoints_tables, setMarks_isSome, setMarks_isSome]
  rw [breakpoints_installed] at member
  by_cases refused : definitionCount packet.m_size = 0 ∨
      ¬ (releaseBreakpoints heap runtime).memory.Grants heap
        (definitionCount packet.m_size * sizeofBreakpointDef)
  · rw [(copiedFor_none refused).1] at member
    cases member
  · rw [BreakpointsFit, ← or_assoc, or_iff_right refused] at fits
    rw [not_or, not_not] at refused
    obtain ⟨block, allocated⟩ := CLR_RT_Memory.allocate_some refused.2
    rw [(copiedFor_some refused.1 allocated).1,
      copiedDefinitions_eq fits.1] at member
    exact fits.2.2 definition member marks

end Steps

end Messaging

end NanoClr
