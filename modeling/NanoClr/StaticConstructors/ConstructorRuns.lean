import NanoClr.StaticConstructors.ConstructorLists

/-!
# What a call starts

Every call of the engine starts the next constructor, or finishes when there is
none, or passes over one for which an allocation failed and marks its assembly
all the same.
-/

namespace NanoClr

namespace StaticConstructors

open TypeSystem ResolvedAssemblies CLR_RT_ExecutionEngine

/-! ## The flags -/

section Flags

variable {engine : CLR_RT_ExecutionEngine} {slot : Nat}

theorem setExecuted_executed (other : Nat) :
    (engine.setExecuted slot).executed other = true ↔
      other = slot ∨ engine.executed other = true := by
  by_cases same : other = slot
  · subst other
    have isSet : (engine.m_flags slot ||| StaticConstructorsExecuted) &&&
        StaticConstructorsExecuted ≠ 0 := by
      intro isZero
      have bit := congrArg (fun flags => flags.toNat.testBit 5) isZero
      have ofConstant : Nat.testBit 32 5 = true := by decide
      simp [StaticConstructorsExecuted, ofConstant] at bit
    simp [executed, setExecuted, isSet]
  · simp [executed, setExecuted, same]

theorem fDepedenciesRun_eq (targets : List Nat) :
    engine.fDepedenciesRun targets = true := by
  induction targets with
  | nil => rfl
  | cons target targets inductionHypothesis =>
      rw [fDepedenciesRun, inductionHypothesis, ite_self]

end Flags

/-! ## The helper -/

/-- The events of a constructor that has run. -/
def startedAndEnded (constructor : CLR_RT_MethodDef_Index) : List Event :=
  [.started constructor, .ended constructor]

/-- Whether a stack frame can be made for a constructor. -/
def ResolvedAssemblies.hasCode (assemblies : ResolvedAssemblies)
    (constructor : CLR_RT_MethodDef_Index) : Bool :=
  (assemblies.assembly (constructor.Assembly - 1)).any fun assembly =>
    assembly.hasCode constructor.Method

/-- The allocations for a constructor succeed, and it can be pushed. -/
def Succeeds (startUp : StartUp) (attempt : Nat)
    (constructor : CLR_RT_MethodDef_Index) : Prop :=
  startUp.outcomes attempt = .allocated ∧
    startUp.assemblies.hasCode constructor = true

/-- The engine with a constructor started on its thread. -/
def started (engine : CLR_RT_ExecutionEngine)
    (constructor : CLR_RT_MethodDef_Index) : CLR_RT_ExecutionEngine :=
  { engine with
    m_cctorThread := some {
      m_status := .TH_S_Ready
      system := true
      m_dlg := some constructor
      m_terminationCallback := true
      frame := some constructor }
    attempts := engine.attempts + 1
    history := engine.history ++ [.started constructor] }

/-- A later state in which no further constructor has ended and no flag is
cleared. -/
structure KeepsEnded (engine later : CLR_RT_ExecutionEngine) : Prop where
  ended : ∀ constructor, .ended constructor ∈ later.history ↔
    .ended constructor ∈ engine.history
  executed : ∀ slot, engine.executed slot = true → later.executed slot = true

namespace KeepsEnded

variable {startUp : StartUp} {engine : CLR_RT_ExecutionEngine}
  {assembly : CLR_RT_Assembly} {slot : Nat} {idx : CLR_RT_MethodDef_Index}

theorem trans
    {middle later : CLR_RT_ExecutionEngine}
    (first : KeepsEnded engine middle)
    (second : KeepsEnded middle later) :
    KeepsEnded engine later where
  ended := fun constructor =>
    (second.ended constructor).trans (first.ended constructor)
  executed := fun slot isExecuted =>
    second.executed slot (first.executed slot isExecuted)

theorem of_same
    {later : CLR_RT_ExecutionEngine}
    (sameHistory : later.history = engine.history)
    (sameFlags : later.m_flags = engine.m_flags) :
    KeepsEnded engine later where
  ended := fun constructor => by rw [sameHistory]
  executed := fun slot isExecuted => by
    rwa [CLR_RT_ExecutionEngine.executed, sameFlags]

theorem setExecuted (slot : Nat) :
    KeepsEnded engine (engine.setExecuted slot) where
  ended := fun _ => Iff.rfl
  executed := fun other isExecuted =>
    (setExecuted_executed other).mpr (.inr isExecuted)

theorem helper :
    KeepsEnded engine
      (engine.SpawnStaticConstructorHelper startUp assembly slot idx).2 := by
  unfold SpawnStaticConstructorHelper
  split
  next idxNext thread found isThread =>
    dsimp only
    split
    · refine trans ?_ (setExecuted slot)
      exact of_same rfl rfl
    · split
      · exact ⟨fun constructor => by simp, fun _ isExecuted => isExecuted⟩
      · refine trans ?_ (setExecuted slot)
        exact of_same rfl rfl
  · exact setExecuted slot

theorem destroyInstance :
    KeepsEnded engine (engine.DestroyInstance startUp) := by
  have passivated : (engine.Passivate id).history = engine.history ∧
      (engine.Passivate id).m_flags = engine.m_flags := by
    unfold Passivate
    split
    · exact ⟨rfl, rfl⟩
    · simp
  exact of_same passivated.1 passivated.2

theorem spawnInAssemblies (slots : List Nat) :
    KeepsEnded engine (spawnInAssemblies startUp slots engine) := by
  induction slots generalizing engine with
  | nil => exact destroyInstance
  | cons slot slots inductionHypothesis =>
      rw [CLR_RT_ExecutionEngine.spawnInAssemblies]
      split
      · exact inductionHypothesis
      · split
        · dsimp only
          split
          · exact helper
          · exact helper.trans inductionHypothesis
        · exact inductionHypothesis

end KeepsEnded

section Helper

variable {startUp : StartUp} {engine : CLR_RT_ExecutionEngine}
  {assembly : CLR_RT_Assembly} {slot : Nat} {idx : CLR_RT_MethodDef_Index}
  (isAssembly : startUp.assemblies.assembly slot = some assembly)

include isAssembly

theorem helper_exhausted
    (exhausted : startUp.assemblies.constructorsFrom slot idx.Method = []) :
    engine.SpawnStaticConstructorHelper startUp assembly slot idx =
      (false, engine.setExecuted slot) := by
  rw [SpawnStaticConstructorHelper, findNextStaticConstructor_eq isAssembly,
    exhausted]
  rfl

variable {constructor : CLR_RT_MethodDef_Index}
  {rest : List CLR_RT_MethodDef_Index} {thread : CctorThread}
  (found : startUp.assemblies.constructorsFrom slot idx.Method =
    constructor :: rest)
  (isThread : engine.m_cctorThread = some thread)

include found isThread

theorem helper_starts
    (isSystem : thread.system = true)
    (succeeds : Succeeds startUp engine.attempts constructor) :
    engine.SpawnStaticConstructorHelper startUp assembly slot idx =
      (true, started engine constructor) := by
  have ofSlot : constructor.Assembly - 1 = slot :=
    assembly_of_constructor (found ▸ List.mem_cons_self)
  obtain ⟨allocated, coded⟩ := succeeds
  rw [ResolvedAssemblies.hasCode, ofSlot, isAssembly] at coded
  have coded : assembly.hasCode constructor.Method = true := coded
  rw [SpawnStaticConstructorHelper, findNextStaticConstructor_eq isAssembly,
    found, isThread]
  simp [PushThreadProcDelegate, ofSlot, isAssembly, allocated, coded, isSystem,
    started]

theorem helper_passesOver
    (fails : ¬Succeeds startUp engine.attempts constructor) :
    (engine.SpawnStaticConstructorHelper startUp assembly slot idx).1 = false ∧
      (engine.SpawnStaticConstructorHelper startUp assembly slot idx).2.executed
        slot = true := by
  have ofSlot : constructor.Assembly - 1 = slot :=
    assembly_of_constructor (found ▸ List.mem_cons_self)
  have coded : startUp.assemblies.hasCode constructor =
      assembly.hasCode constructor.Method := by
    rw [ResolvedAssemblies.hasCode, ofSlot, isAssembly]
    rfl
  rw [Succeeds, coded] at fails
  rw [SpawnStaticConstructorHelper, findNextStaticConstructor_eq isAssembly,
    found, isThread]
  dsimp only [List.head?_cons]
  split
  · exact ⟨rfl, (setExecuted_executed slot).mpr (.inl rfl)⟩
  · split
    next pushed =>
      refine absurd ?_ fails
      simpa [PushThreadProcDelegate, ofSlot, isAssembly, apply_ite] using pushed
    · exact ⟨rfl, (setExecuted_executed slot).mpr (.inl rfl)⟩

end Helper

/-! ## The calls -/

/-- The engine in the loop over the assemblies, when the constructors before a
slot have run and no others. -/
structure Scanning (startUp : StartUp) (slot : Nat)
    (engine : CLR_RT_ExecutionEngine) : Prop where
  executed : ∀ other assembly,
    startUp.assemblies.assembly other = some assembly →
      (engine.executed other = true ↔ other < slot)
  history : engine.history =
    (startUp.assemblies.constructorsBefore slot).flatMap startedAndEnded
  attempts : engine.attempts =
    (startUp.assemblies.constructorsBefore slot).length
  thread : ∃ thread, engine.m_cctorThread = some thread ∧
    thread.system = true ∧ thread.frame = none
  notDestroyed : engine.destroyed = false

/-- The engine while a constructor runs, when the ones in front of it have
run. -/
structure Running (startUp : StartUp) (done : List CLR_RT_MethodDef_Index)
    (slot method : Nat) (engine : CLR_RT_ExecutionEngine) : Prop where
  isMethod : ∃ assembly, startUp.assemblies.assembly slot = some assembly ∧
    method < assembly.methodDefs.length
  before : startUp.assemblies.constructorsBefore slot <+: done
  constructors : startUp.assemblies.constructorsBefore (slot + 1) =
    done ++ methodIndex slot method ::
      startUp.assemblies.constructorsFrom slot (method + 1)
  succeeds : Succeeds startUp done.length (methodIndex slot method)
  executed : ∀ other assembly,
    startUp.assemblies.assembly other = some assembly →
      (engine.executed other = true ↔ other < slot)
  history : engine.history =
    done.flatMap startedAndEnded ++ [.started (methodIndex slot method)]
  attempts : engine.attempts = done.length + 1
  thread : engine.m_cctorThread = some {
    m_status := .TH_S_Ready
    system := true
    m_dlg := some (methodIndex slot method)
    m_terminationCallback := true
    frame := some (methodIndex slot method) }
  notDestroyed : engine.destroyed = false

/-- The engine when all constructors have run. -/
structure Finished (startUp : StartUp) (done : List CLR_RT_MethodDef_Index)
    (engine : CLR_RT_ExecutionEngine) : Prop where
  all : done = startUp.assemblies.allConstructors
  history : engine.history = done.flatMap startedAndEnded
  stopped : ∀ thread, engine.m_cctorThread = some thread → thread.frame = none

/-- What a call leads to when some constructors have run: it starts the next
one, or is finished, or has passed over one. -/
inductive Spawned (startUp : StartUp) (done : List CLR_RT_MethodDef_Index)
    (engine : CLR_RT_ExecutionEngine) : Prop where
  | running {slot method : Nat} (runs : Running startUp done slot method engine)
  | finished (finished : Finished startUp done engine)
  | passedOver {slot : Nat} {constructor : CLR_RT_MethodDef_Index}
      (member : constructor ∈ startUp.assemblies.staticConstructors slot)
      (isNext : done ++ [constructor] <+: startUp.assemblies.allConstructors)
      (fails : ¬Succeeds startUp done.length constructor)
      (executed : engine.executed slot = true)
      (notEnded : .ended constructor ∉ engine.history)

@[simp] theorem ended_mem
    {done : List CLR_RT_MethodDef_Index}
    {constructor : CLR_RT_MethodDef_Index} :
    .ended constructor ∈ done.flatMap startedAndEnded ↔ constructor ∈ done := by
  simp [startedAndEnded]

section Scan

variable {startUp : StartUp} {engine : CLR_RT_ExecutionEngine} {slot : Nat}

/-- Going on to the next slot when the assembly in this one, if any, is marked
and has no constructors. -/
theorem Scanning.next
    {marked : CLR_RT_ExecutionEngine}
    (scanning : Scanning startUp slot engine)
    (exhausted : startUp.assemblies.staticConstructors slot = [])
    (sameHistory : marked.history = engine.history)
    (sameAttempts : marked.attempts = engine.attempts)
    (sameThread : marked.m_cctorThread = engine.m_cctorThread)
    (sameDestroyed : marked.destroyed = engine.destroyed)
    (executed : ∀ other assembly,
      startUp.assemblies.assembly other = some assembly →
        (marked.executed other = true ↔
          other = slot ∨ engine.executed other = true)) :
    Scanning startUp (slot + 1) marked where
  executed := fun other assembly isAssembly => by
    rw [executed other assembly isAssembly,
      scanning.executed other assembly isAssembly]
    omega
  history := by
    rw [constructorsBefore_succ, exhausted, List.append_nil, sameHistory]
    exact scanning.history
  attempts := by
    rw [constructorsBefore_succ, exhausted, List.append_nil, sameAttempts]
    exact scanning.attempts
  thread := sameThread ▸ scanning.thread
  notDestroyed := sameDestroyed ▸ scanning.notDestroyed

theorem Scanning.destroyed
    (scanning : Scanning startUp startUp.assemblies.m_assemblies.length
      engine) :
    Finished startUp startUp.assemblies.allConstructors
      (engine.DestroyInstance startUp) := by
  obtain ⟨thread, isThread, isSystem, noFrame⟩ := scanning.thread
  refine ⟨rfl, ?_, ?_⟩
  · have same : (engine.DestroyInstance startUp).history = engine.history := by
      simp [DestroyInstance, Passivate, isThread]
    rw [same]
    exact scanning.history
  · intro last isLast
    cases isReferenced : startUp.referenced with
    | false => simp [DestroyInstance, isReferenced] at isLast
    | true =>
        simp [DestroyInstance, isReferenced, Passivate, isThread, isSystem,
          CctorThread.clearDelegate] at isLast
        subst isLast
        exact noFrame

theorem Scanning.notEnded
    {constructor : CLR_RT_MethodDef_Index}
    (scanning : Scanning startUp slot engine)
    (member : constructor ∈ startUp.assemblies.staticConstructors slot) :
    .ended constructor ∉ engine.history := by
  rw [scanning.history, ended_mem, mem_constructorsBefore]
  rintro ⟨other, isEarlier, isOther⟩
  have ofOther := assembly_of_mem isOther
  have ofSlot := assembly_of_mem member
  omega

/-- A constructor whose allocations fail is passed over, whatever assemblies are
looked at afterwards. -/
theorem spawned_of_fails
    {done : List CLR_RT_MethodDef_Index}
    {assembly : CLR_RT_Assembly}
    {idx constructor : CLR_RT_MethodDef_Index}
    {rest : List CLR_RT_MethodDef_Index}
    {thread : CctorThread}
    (isAssembly : startUp.assemblies.assembly slot = some assembly)
    (found : startUp.assemblies.constructorsFrom slot idx.Method =
      constructor :: rest)
    (isThread : engine.m_cctorThread = some thread)
    (member : constructor ∈ startUp.assemblies.staticConstructors slot)
    (isNext : done ++ [constructor] <+: startUp.assemblies.allConstructors)
    (attempts : engine.attempts = done.length)
    (fails : ¬Succeeds startUp engine.attempts constructor)
    (notEnded : .ended constructor ∉ engine.history)
    (slots : List Nat) :
    Spawned startUp done
      (spawnInAssemblies startUp slots
        (engine.SpawnStaticConstructorHelper startUp assembly slot idx).2) := by
  have isExecuted := (helper_passesOver isAssembly found isThread fails).2
  have helperKeeps : KeepsEnded engine
      (engine.SpawnStaticConstructorHelper startUp assembly slot idx).2 :=
    .helper
  have scanKeeps : KeepsEnded
      (engine.SpawnStaticConstructorHelper startUp assembly slot idx).2
      (spawnInAssemblies startUp slots
        (engine.SpawnStaticConstructorHelper startUp assembly slot idx).2) :=
    .spawnInAssemblies slots
  refine .passedOver member isNext (attempts ▸ fails)
    (scanKeeps.executed slot isExecuted) ?_
  rw [scanKeeps.ended, helperKeeps.ended]
  exact notEnded

/-- Starting the first constructor of the assembly in a slot. -/
theorem Scanning.starts
    {assembly : CLR_RT_Assembly}
    {constructor : CLR_RT_MethodDef_Index}
    {rest : List CLR_RT_MethodDef_Index}
    (scanning : Scanning startUp slot engine)
    (isAssembly : startUp.assemblies.assembly slot = some assembly)
    (found : startUp.assemblies.staticConstructors slot = constructor :: rest)
    (succeeds : Succeeds startUp engine.attempts constructor) :
    Spawned startUp (startUp.assemblies.constructorsBefore slot)
      (started engine constructor) := by
  obtain ⟨method, isMethod, rfl, rfl⟩ := constructorsFrom_cons isAssembly found
  exact .running {
    isMethod := ⟨assembly, isAssembly, isMethod⟩
    before := List.prefix_rfl
    constructors := by rw [constructorsBefore_succ, found]
    succeeds := scanning.attempts ▸ succeeds
    executed := scanning.executed
    history := by rw [← scanning.history]; rfl
    attempts := by rw [← scanning.attempts]; rfl
    thread := rfl
    notDestroyed := scanning.notDestroyed }

/-- The loop over the assemblies from a slot on. -/
theorem Scanning.spawned
    {count : Nat}
    (reaches : slot + count = startUp.assemblies.m_assemblies.length)
    (scanning : Scanning startUp slot engine) :
    Spawned startUp (startUp.assemblies.constructorsBefore slot)
      (spawnInAssemblies startUp (List.range' slot count) engine) := by
  induction count generalizing slot engine with
  | zero =>
      obtain rfl : slot = startUp.assemblies.m_assemblies.length := by omega
      exact .finished scanning.destroyed
  | succ count inductionHypothesis =>
      have goesOn : ∀ {marked},
          startUp.assemblies.staticConstructors slot = [] →
          Scanning startUp (slot + 1) marked →
          Spawned startUp (startUp.assemblies.constructorsBefore slot)
            (spawnInAssemblies startUp (List.range' (slot + 1) count)
              marked) := by
        intro marked exhausted scanning
        have spawned := inductionHypothesis (by omega) scanning
        rwa [constructorsBefore_succ, exhausted, List.append_nil] at spawned
      rw [List.range'_succ, spawnInAssemblies]
      cases isAssembly : startUp.assemblies.assembly slot with
      | none =>
          have exhausted : startUp.assemblies.staticConstructors slot = [] := by
            rw [staticConstructors, constructorsFrom, isAssembly]
          refine goesOn exhausted
            (scanning.next exhausted rfl rfl rfl rfl ?_)
          intro other assembly isOther
          have differs : other ≠ slot := by
            rintro rfl
            rw [isAssembly] at isOther
            cases isOther
          simp [differs]
      | some assembly =>
          have notExecuted :
              engine.m_flags slot &&& StaticConstructorsExecuted = 0 := by
            by_contra isExecuted
            refine Nat.lt_irrefl slot
              ((scanning.executed slot assembly isAssembly).mp ?_)
            simpa [CLR_RT_ExecutionEngine.executed] using isExecuted
          have first : (CLR_RT_MethodDef_Index.mk
              (setIndex assembly.m_idx 0)).Method = 0 := by
            rw [m_idx_eq isAssembly]
            exact methodIndex_Method (slotFits_of_assembly isAssembly)
              (Nat.zero_le _)
          obtain ⟨thread, isThread, isSystem, noFrame⟩ := scanning.thread
          simp only [notExecuted, fDepedenciesRun_eq, decide_true, Bool.and_self,
            if_true]
          cases found : startUp.assemblies.staticConstructors slot with
          | nil =>
              rw [helper_exhausted isAssembly (by rw [first]; exact found)]
              exact goesOn found (scanning.next found rfl rfl rfl rfl
                fun other _ _ => setExecuted_executed other)
          | cons constructor rest =>
              have found' : startUp.assemblies.constructorsFrom slot
                  (CLR_RT_MethodDef_Index.mk
                    (setIndex assembly.m_idx 0)).Method = constructor :: rest :=
                first.symm ▸ found
              have member : constructor ∈
                  startUp.assemblies.staticConstructors slot :=
                found ▸ List.mem_cons_self
              by_cases succeeds : Succeeds startUp engine.attempts constructor
              · rw [helper_starts isAssembly found' isThread isSystem succeeds]
                exact scanning.starts isAssembly found succeeds
              · have notSpawned :=
                  (helper_passesOver isAssembly found' isThread succeeds).1
                rw [notSpawned]
                have isNext :
                    startUp.assemblies.constructorsBefore slot ++
                      [constructor] <+: startUp.assemblies.allConstructors := by
                  have isPrefix := constructorsBefore_isPrefix
                    startUp.assemblies (slot_lt isAssembly)
                  rw [Nat.succ_eq_add_one, constructorsBefore_succ, found]
                    at isPrefix
                  refine List.IsPrefix.trans ?_ isPrefix
                  exact (List.prefix_append_right_inj _).mpr
                    (List.prefix_append [constructor] rest)
                exact spawned_of_fails isAssembly found' isThread member isNext
                  scanning.attempts succeeds (scanning.notEnded member) _

/-- The loop over all assemblies passes over those that are marked. -/
theorem Scanning.spawned_all
    (slotFits : slot ≤ startUp.assemblies.m_assemblies.length)
    (scanning : Scanning startUp slot engine) :
    Spawned startUp (startUp.assemblies.constructorsBefore slot)
      (spawnInAssemblies startUp startUp.assemblies.slots engine) := by
  have skips : ∀ first count, first + count = slot →
      spawnInAssemblies startUp (List.range' first
        (startUp.assemblies.m_assemblies.length - first)) engine =
      spawnInAssemblies startUp (List.range' slot
        (startUp.assemblies.m_assemblies.length - slot)) engine := by
    intro first count
    induction count generalizing first with
    | zero =>
        rintro rfl
        rfl
    | succ count inductionHypothesis =>
        intro reaches
        rw [← inductionHypothesis (first + 1) (by omega)]
        have more : startUp.assemblies.m_assemblies.length - first =
            startUp.assemblies.m_assemblies.length - (first + 1) + 1 := by omega
        rw [more, List.range'_succ, spawnInAssemblies]
        cases isAssembly : startUp.assemblies.assembly first with
        | none => rfl
        | some assembly =>
            have isExecuted : engine.executed first = true :=
              (scanning.executed first assembly isAssembly).mpr (by omega)
            have marked : engine.m_flags first &&& StaticConstructorsExecuted ≠
                0 := by
              simpa [CLR_RT_ExecutionEngine.executed] using isExecuted
            simp [marked]
  have fromSlot := skips 0 slot (Nat.zero_add slot)
  rw [slots, List.range_eq_range', ← Nat.sub_zero
    startUp.assemblies.m_assemblies.length, fromSlot]
  exact scanning.spawned (by omega)

end Scan

/-! ## The end of a constructor -/

section Resume

variable {startUp : StartUp} {engine : CLR_RT_ExecutionEngine}
  {done : List CLR_RT_MethodDef_Index} {slot method : Nat}

/-- The engine when the termination callback is called. -/
def atCallback (engine : CLR_RT_ExecutionEngine)
    (constructor : CLR_RT_MethodDef_Index) : CLR_RT_ExecutionEngine :=
  { engine with
    m_cctorThread := some {
      m_status := .TH_S_Unstarted
      system := true
      m_dlg := some constructor
      m_terminationCallback := false
      frame := none }
    history := engine.history ++ [.ended constructor] }

theorem Running.constructorEnds
    (runs : Running startUp done slot method engine) :
    engine.constructorEnds startUp = some {
      (atCallback engine (methodIndex slot method)).SpawnStaticConstructor
        startUp with
      m_cctorThread := ((atCallback engine (methodIndex slot method)
        ).SpawnStaticConstructor startUp).m_cctorThread.map
          CctorThread.clearDelegate } := by
  simp [CLR_RT_ExecutionEngine.constructorEnds, runs.thread, Passivate,
    atCallback]

/-- Dropping the delegate of a thread that does not go on changes nothing that
matters. -/
theorem Spawned.clearDelegate
    (spawned : Spawned startUp done engine) :
    Spawned startUp done { engine with
      m_cctorThread := engine.m_cctorThread.map CctorThread.clearDelegate } := by
  cases spawned with
  | running runs =>
      refine .running { runs with thread := ?_ }
      simp [runs.thread, CctorThread.clearDelegate]
  | finished finished =>
      refine .finished { finished with stopped := ?_ }
      intro last isLast
      obtain ⟨thread, isThread, rfl⟩ := Option.map_eq_some_iff.mp isLast
      unfold CctorThread.clearDelegate
      split
      · exact finished.stopped thread isThread
      · exact finished.stopped thread isThread
  | passedOver member isNext fails executed notEnded =>
      exact .passedOver member isNext fails executed notEnded

theorem spawn_atCallback
    {assembly : CLR_RT_Assembly}
    {constructor : CLR_RT_MethodDef_Index}
    (ofSlot : constructor.Assembly - 1 = slot)
    (isAssembly : startUp.assemblies.assembly slot = some assembly) :
    (atCallback engine constructor).SpawnStaticConstructor startUp =
      if ((atCallback engine constructor).SpawnStaticConstructorHelper startUp
          assembly slot ⟨constructor.m_data + 1⟩).1 then
        ((atCallback engine constructor).SpawnStaticConstructorHelper startUp
          assembly slot ⟨constructor.m_data + 1⟩).2
      else
        spawnInAssemblies startUp startUp.assemblies.slots
          ((atCallback engine constructor).SpawnStaticConstructorHelper startUp
            assembly slot ⟨constructor.m_data + 1⟩).2 := by
  have ensured : (atCallback engine constructor).EnsureSystemThread startUp =
      (true, atCallback engine constructor) := by
    simp [EnsureSystemThread, atCallback, CctorThread.CanThreadBeReused]
  have delegate : (atCallback engine constructor).m_cctorThread.bind
      CctorThread.m_dlg = some constructor := rfl
  rw [SpawnStaticConstructor, ensured]
  simp only [delegate, ofSlot, isAssembly, if_true]

/-- When a constructor ends, the next one of all is started, if its allocations
succeed. -/
theorem Running.spawned
    {later : CLR_RT_ExecutionEngine}
    (runs : Running startUp done slot method engine)
    (ends : engine.constructorEnds startUp = some later) :
    Spawned startUp (done ++ [methodIndex slot method]) later := by
  rw [runs.constructorEnds, Option.some.injEq] at ends
  subst ends
  apply Spawned.clearDelegate
  obtain ⟨assembly, isAssembly, isMethod⟩ := runs.isMethod
  have slotFits := slotFits_of_assembly isAssembly
  have methodFits := methodFits_of_lt isAssembly isMethod
  have ofSlot : (methodIndex slot method).Assembly - 1 = slot := by
    rw [methodIndex_Assembly slotFits (Nat.le_of_lt methodFits),
      Nat.add_sub_cancel]
  have next := nextIndex_Method slotFits methodFits
  have history : (atCallback engine (methodIndex slot method)).history =
      (done ++ [methodIndex slot method]).flatMap startedAndEnded := by
    rw [atCallback, runs.history]
    simp [startedAndEnded]
  have attempts : (atCallback engine (methodIndex slot method)).attempts =
      (done ++ [methodIndex slot method]).length := by
    rw [List.length_append, List.length_singleton]
    exact runs.attempts
  rw [spawn_atCallback ofSlot isAssembly]
  cases found : startUp.assemblies.constructorsFrom slot (method + 1) with
  | nil =>
      have all : startUp.assemblies.constructorsBefore (slot + 1) =
          done ++ [methodIndex slot method] := by
        rw [runs.constructors, found]
      rw [helper_exhausted isAssembly (next.symm ▸ found), ← all]
      refine Scanning.spawned_all (slot_lt isAssembly) {
        executed := fun other _ isOther => ?_
        history := all ▸ history
        attempts := all ▸ attempts
        thread := ⟨_, rfl, rfl, rfl⟩
        notDestroyed := runs.notDestroyed }
      rw [setExecuted_executed, Nat.lt_succ_iff_lt_or_eq, Or.comm]
      exact or_congr_left (runs.executed other _ isOther)
  | cons constructor rest =>
      have found' := next.symm ▸ found
      have ofAssembly : constructor ∈
          startUp.assemblies.constructorsFrom slot (method + 1) :=
        found ▸ List.mem_cons_self
      by_cases succeeds : Succeeds startUp
          (atCallback engine (methodIndex slot method)).attempts constructor
      · rw [helper_starts isAssembly found' rfl rfl succeeds]
        obtain ⟨first, isFirst, rfl, rfl⟩ :=
          constructorsFrom_cons isAssembly found
        exact .running {
          isMethod := ⟨assembly, isAssembly, isFirst⟩
          before := runs.before.trans (List.prefix_append _ _)
          constructors := by
            rw [runs.constructors, found, List.append_assoc]
            rfl
          succeeds := attempts ▸ succeeds
          executed := runs.executed
          history := by rw [← history]; rfl
          attempts := by rw [← attempts]; rfl
          thread := rfl
          notDestroyed := runs.notDestroyed }
      · have notSpawned :=
          (helper_passesOver isAssembly found' rfl succeeds).1
        rw [notSpawned]
        refine spawned_of_fails isAssembly found' rfl
          (mem_staticConstructors ofAssembly) ?_ attempts succeeds ?_ _
        · have isPrefix := constructorsBefore_isPrefix
            startUp.assemblies (slot_lt isAssembly)
          rw [Nat.succ_eq_add_one, runs.constructors, found] at isPrefix
          refine List.IsPrefix.trans ⟨rest, ?_⟩ isPrefix
          simp
        have distinct := constructorsBefore_nodup
          startUp.assemblies (slot + 1)
        rw [runs.constructors, found, ← List.singleton_append,
          ← List.append_assoc] at distinct
        rw [history, ended_mem]
        intro isDone
        exact (List.nodup_append.mp distinct).2.2 _ isDone _
          List.mem_cons_self rfl

end Resume

/-! ## The start-up -/

/-- The first call starts the first constructor, if its allocations succeed. -/
theorem beforeStartUp_spawned
    {startUp : StartUp}
    (created : startUp.threadCreated = true) :
    Spawned startUp []
      ((beforeStartUp startUp).SpawnStaticConstructor startUp) := by
  have ensured : (beforeStartUp startUp).EnsureSystemThread startUp =
      (true, { beforeStartUp startUp with
        m_cctorThread := some newSystemThread }) := by
    rw [EnsureSystemThread]
    simp only [beforeStartUp, created, if_true]
  rw [SpawnStaticConstructor, ensured]
  have scanning : Scanning startUp 0 { beforeStartUp startUp with
      m_cctorThread := some newSystemThread } := {
    executed := fun other _ _ => by
      simp [executed, beforeStartUp, startUp.notExecuted other]
    history := rfl
    attempts := rfl
    thread := ⟨_, rfl, rfl, rfl⟩
    notDestroyed := rfl }
  exact scanning.spawned_all (Nat.zero_le _)

end StaticConstructors

end NanoClr
