import NanoClr.StaticConstructors.ConstructorRuns

/-!
# The order of static constructors

The constructors of a start-up run in the order of their assemblies' slots, so
that they follow the references only where the assemblies are linked that way.
-/

namespace NanoClr

namespace StaticConstructors

open TypeSystem ResolvedAssemblies CLR_RT_ExecutionEngine

/-! ## What a start-up promises -/

/-- Every constructor is started once at most, and only when those of the
referenced assemblies have ended; an assembly is marked only when its
constructors have run; and without failures all have run in the end. -/
structure ConstructorsOrdered (startUp : StartUp)
    (engine : CLR_RT_ExecutionEngine) : Prop where
  startedOnce : ∀ constructor, engine.history.count (.started constructor) ≤ 1
  afterReferences : ∀ before constructor after,
    engine.history = before ++ .started constructor :: after →
      ∀ slot assembly, startUp.assemblies.assembly slot = some assembly →
        constructor ∈ startUp.assemblies.staticConstructors slot →
        ∀ target ∈ assembly.m_pCrossReference_AssemblyRef,
          ∀ other ∈ startUp.assemblies.staticConstructors target,
            .ended other ∈ before
  markedWhenRun : ∀ slot, engine.executed slot = true →
    ∀ constructor ∈ startUp.assemblies.staticConstructors slot,
      .ended constructor ∈ engine.history
  allRun : engine.destroyed = true →
    (∀ attempt < engine.attempts, startUp.outcomes attempt = .allocated) →
    ∀ slot, ∀ constructor ∈ startUp.assemblies.staticConstructors slot,
      .ended constructor ∈ engine.history

/-- Every assembly with constructors is linked behind the ones with
constructors that it references. -/
def LinkedInOrder (assemblies : ResolvedAssemblies) : Prop :=
  ∀ slot assembly, assemblies.assembly slot = some assembly →
    assemblies.staticConstructors slot ≠ [] →
    ∀ target ∈ assembly.m_pCrossReference_AssemblyRef,
      assemblies.staticConstructors target ≠ [] → target < slot

/-- When the constructors of a start-up are run as promised: there is no thread
to run them, or the allocations for each of them succeed, each has code, and the
assemblies are linked in the order of their references. -/
def StartUpCondition (startUp : StartUp) : Prop :=
  startUp.threadCreated = false ∨
    (∀ attempt < startUp.assemblies.allConstructors.length,
      startUp.outcomes attempt = .allocated) ∧
    (∀ constructor ∈ startUp.assemblies.allConstructors,
      startUp.assemblies.hasCode constructor = true) ∧
    LinkedInOrder startUp.assemblies

/-! ## The history of the constructors that have run -/

section History

variable {done : List CLR_RT_MethodDef_Index}

theorem count_started (constructor : CLR_RT_MethodDef_Index) :
    (done.flatMap startedAndEnded).count (.started constructor) =
      done.count constructor := by
  induction done with
  | nil => rfl
  | cons first done inductionHypothesis =>
      rw [List.flatMap_cons, List.count_append, inductionHypothesis,
        List.count_cons, startedAndEnded]
      simp [List.count_cons, Nat.add_comm]

/-- In front of the start of a constructor are the ones that have run before
it. -/
theorem started_split
    {before after : List Event}
    {constructor : CLR_RT_MethodDef_Index}
    (history : done.flatMap startedAndEnded =
      before ++ .started constructor :: after) :
    ∃ earlier later, done = earlier ++ constructor :: later ∧
      before = earlier.flatMap startedAndEnded := by
  induction done generalizing before with
  | nil => simp at history
  | cons first done inductionHypothesis =>
      match before with
      | [] =>
          simp only [List.flatMap_cons, startedAndEnded, List.cons_append,
            List.nil_append, List.cons.injEq, Event.started.injEq] at history
          exact ⟨[], done, by rw [history.1]; rfl, rfl⟩
      | [event] =>
          simp [startedAndEnded] at history
      | event :: next :: before =>
          simp only [List.flatMap_cons, startedAndEnded, List.cons_append,
            List.nil_append, List.cons.injEq] at history
          obtain ⟨rfl, rfl, rest⟩ := history
          obtain ⟨earlier, later, rfl, rfl⟩ := inductionHypothesis rest
          exact ⟨first :: earlier, later, rfl, rfl⟩

end History

/-! ## Runs that go well -/

section Runs

variable {startUp : StartUp} {engine : CLR_RT_ExecutionEngine}
  {done : List CLR_RT_MethodDef_Index} {slot method : Nat}

theorem Running.isPrefix
    (runs : Running startUp done slot method engine) :
    done ++ [methodIndex slot method] <+:
      startUp.assemblies.allConstructors := by
  obtain ⟨assembly, isAssembly, _⟩ := runs.isMethod
  have isPrefix := constructorsBefore_isPrefix
    startUp.assemblies (slot_lt isAssembly)
  rw [Nat.succ_eq_add_one, runs.constructors] at isPrefix
  refine List.IsPrefix.trans
    ⟨startUp.assemblies.constructorsFrom slot (method + 1), ?_⟩ isPrefix
  rw [List.append_assoc]
  rfl

/-- A constructor in front of another one has the smaller index. -/
theorem less_of_isPrefix
    {constructor other : CLR_RT_MethodDef_Index}
    (isPrefix : done ++ [constructor] <+: startUp.assemblies.allConstructors)
    (isDone : other ∈ done) :
    other.m_data.toNat < constructor.m_data.toNat := by
  have sorted := (constructorsBefore_sorted startUp.assemblies
    _).sublist isPrefix.sublist
  rw [List.pairwise_append] at sorted
  exact sorted.2.2 other isDone constructor List.mem_cons_self

theorem mem_allConstructors
    {constructor : CLR_RT_MethodDef_Index}
    (member : constructor ∈ startUp.assemblies.staticConstructors slot) :
    constructor ∈ startUp.assemblies.allConstructors := by
  obtain ⟨assembly, _, isAssembly, _⟩ := mem_constructorsFrom member
  exact mem_constructorsBefore.mpr ⟨slot, slot_lt isAssembly, member⟩

/-- With assemblies in the order of their references, the constructors of a
referenced assembly are in front. -/
theorem references_before
    {assembly : CLR_RT_Assembly}
    {constructor other : CLR_RT_MethodDef_Index}
    {ran earlier later : List CLR_RT_MethodDef_Index}
    {target : Nat}
    (linked : LinkedInOrder startUp.assemblies)
    (isPrefix : ran <+: startUp.assemblies.allConstructors)
    (split : ran = earlier ++ constructor :: later)
    (isAssembly : startUp.assemblies.assembly slot = some assembly)
    (member : constructor ∈ startUp.assemblies.staticConstructors slot)
    (isTarget : target ∈ assembly.m_pCrossReference_AssemblyRef)
    (isOther : other ∈ startUp.assemblies.staticConstructors target) :
    other ∈ earlier := by
  have isEarlier : target < slot :=
    linked slot assembly isAssembly (List.ne_nil_of_mem member) target isTarget
      (List.ne_nil_of_mem isOther)
  have constructorSlot := assembly_of_mem member
  have otherSlot := assembly_of_mem isOther
  rw [CLR_RT_MethodDef_Index.Assembly, highHalf_eq] at constructorSlot otherSlot
  obtain ⟨rest, all⟩ := isPrefix
  have all : startUp.assemblies.allConstructors =
      earlier ++ constructor :: (later ++ rest) := by
    rw [← all, split, List.append_assoc]
    rfl
  have sorted := constructorsBefore_sorted startUp.assemblies
    startUp.assemblies.m_assemblies.length
  have isOne : other ∈ startUp.assemblies.allConstructors :=
    mem_allConstructors isOther
  rw [← allConstructors, all, List.pairwise_append,
    List.pairwise_cons] at sorted
  rw [all, List.mem_append, List.mem_cons] at isOne
  rcases isOne with isOne | same | isLater
  · exact isOne
  · subst same
    omega
  · have less := sorted.2.1.1 other isLater
    omega

theorem Running.ordered
    (linked : LinkedInOrder startUp.assemblies)
    (runs : Running startUp done slot method engine) :
    ConstructorsOrdered startUp engine where
  startedOnce := fun constructor => by
    have distinct := (constructorsBefore_nodup
      startUp.assemblies _).sublist runs.isPrefix.sublist
    have once := List.nodup_iff_count.mp distinct constructor
    rw [List.count_append, List.count_singleton] at once
    rw [runs.history, List.count_append, count_started, List.count_singleton]
    simpa using once
  afterReferences := fun before constructor after history other assembly
      isAssembly member target isTarget reference isReference => by
    have complete : (done ++ [methodIndex slot method]).flatMap
        startedAndEnded = before ++ .started constructor ::
          (after ++ [.ended (methodIndex slot method)]) := by
      rw [← List.cons_append, ← List.append_assoc, ← history, runs.history]
      simp [startedAndEnded]
    obtain ⟨earlier, later, split, rfl⟩ := started_split complete
    rw [ended_mem]
    exact references_before linked runs.isPrefix split isAssembly member
      isTarget isReference
  markedWhenRun := fun other isExecuted constructor member => by
    obtain ⟨assembly, _, isAssembly, _⟩ := mem_constructorsFrom member
    have isEarlier := (runs.executed other assembly isAssembly).mp isExecuted
    have isDone : constructor ∈ done :=
      runs.before.subset
        (mem_constructorsBefore.mpr ⟨other, isEarlier, member⟩)
    rw [runs.history]
    exact List.mem_append_left _ (ended_mem.mpr isDone)
  allRun := fun destroyed => by
    rw [runs.notDestroyed] at destroyed
    cases destroyed

theorem Finished.ordered
    (linked : LinkedInOrder startUp.assemblies)
    (finished : Finished startUp done engine) :
    ConstructorsOrdered startUp engine where
  startedOnce := fun constructor => by
    rw [finished.history, count_started, finished.all]
    exact List.nodup_iff_count.mp (constructorsBefore_nodup _ _)
      constructor
  afterReferences := fun before constructor after history other assembly
      isAssembly member target isTarget reference isReference => by
    obtain ⟨earlier, later, split, rfl⟩ :=
      started_split (finished.history.symm.trans history)
    rw [ended_mem]
    exact references_before linked (finished.all ▸ List.prefix_rfl) split
      isAssembly member isTarget isReference
  markedWhenRun := fun other _ constructor member => by
    rw [finished.history, ended_mem, finished.all]
    exact mem_allConstructors member
  allRun := fun _ _ other constructor member => by
    rw [finished.history, ended_mem, finished.all]
    exact mem_allConstructors member

/-- A constructor runs and those in front of it have run, or all have. -/
def GoesWell (startUp : StartUp) (engine : CLR_RT_ExecutionEngine) : Prop :=
  (∃ done slot method, Running startUp done slot method engine) ∨
    ∃ done, Finished startUp done engine

theorem Spawned.goesWell
    (allocates : ∀ attempt < startUp.assemblies.allConstructors.length,
      startUp.outcomes attempt = .allocated)
    (coded : ∀ constructor ∈ startUp.assemblies.allConstructors,
      startUp.assemblies.hasCode constructor = true)
    (spawned : Spawned startUp done engine) :
    GoesWell startUp engine := by
  cases spawned with
  | running runs => exact .inl ⟨_, _, _, runs⟩
  | finished finished => exact .inr ⟨_, finished⟩
  | passedOver member isNext fails executed notEnded =>
      refine absurd ⟨allocates _ ?_, coded _ (mem_allConstructors member)⟩ fails
      have shorter := isNext.length_le
      rwa [List.length_append, List.length_singleton] at shorter

theorem Finished.constructorEnds
    (finished : Finished startUp done engine) :
    engine.constructorEnds startUp = none := by
  rw [CLR_RT_ExecutionEngine.constructorEnds]
  cases isThread : engine.m_cctorThread with
  | none => rfl
  | some thread =>
      have noFrame := finished.stopped thread isThread
      simp [noFrame]

theorem Reached.goesWell
    (created : startUp.threadCreated = true)
    (allocates : ∀ attempt < startUp.assemblies.allConstructors.length,
      startUp.outcomes attempt = .allocated)
    (coded : ∀ constructor ∈ startUp.assemblies.allConstructors,
      startUp.assemblies.hasCode constructor = true)
    (reached : Reached startUp engine) :
    GoesWell startUp engine := by
  apply reached.invariant
  · rintro engine rfl
    exact (beforeStartUp_spawned created).goesWell allocates coded
  · rintro engine later - goesWell ends
    rcases goesWell with ⟨done, slot, method, runs⟩ | ⟨done, finished⟩
    · exact (runs.spawned ends).goesWell allocates coded
    · rw [finished.constructorEnds] at ends
      cases ends

/-- Without a thread no constructor is ever started. -/
theorem Reached.notCreated
    (notCreated : startUp.threadCreated = false)
    (reached : Reached startUp engine) :
    engine = beforeStartUp startUp := by
  apply reached.invariant
  · rintro engine rfl
    simp [SpawnStaticConstructor, EnsureSystemThread, beforeStartUp, notCreated]
  · rintro engine later - rfl ends
    simp [CLR_RT_ExecutionEngine.constructorEnds, beforeStartUp] at ends

theorem beforeStartUp_ordered (startUp : StartUp) :
    ConstructorsOrdered startUp (beforeStartUp startUp) where
  startedOnce := by simp [beforeStartUp]
  afterReferences := by simp [beforeStartUp]
  markedWhenRun := by simp [beforeStartUp, executed, startUp.notExecuted]
  allRun := by simp [beforeStartUp]

end Runs

/-! ## Runs that are as promised -/

section Promised

variable {startUp : StartUp} {engine : CLR_RT_ExecutionEngine}
  {done : List CLR_RT_MethodDef_Index}

/-- An assembly that is marked although one of its constructors was passed over
is not what was promised. -/
theorem Spawned.runs
    (ordered : ConstructorsOrdered startUp engine)
    (more : done.length < startUp.assemblies.allConstructors.length)
    (spawned : Spawned startUp done engine) :
    ∃ slot method, Running startUp done slot method engine := by
  cases spawned with
  | running runs => exact ⟨_, _, runs⟩
  | finished finished =>
      rw [finished.all] at more
      exact absurd more (Nat.lt_irrefl _)
  | passedOver member _ _ executed notEnded =>
      exact absurd (ordered.markedWhenRun _ executed _ member) notEnded

/-- Where everything is as promised, every constructor gets its turn. -/
theorem exists_running
    (created : startUp.threadCreated = true)
    (ordered : ∀ engine, Reached startUp engine →
      ConstructorsOrdered startUp engine)
    {count : Nat}
    (more : count < startUp.assemblies.allConstructors.length) :
    ∃ engine done slot method, Reached startUp engine ∧ done.length = count ∧
      Running startUp done slot method engine := by
  induction count with
  | zero =>
      have reached : Reached startUp
          ((beforeStartUp startUp).SpawnStaticConstructor startUp) :=
        .start rfl
      have none : ([] : List CLR_RT_MethodDef_Index).length <
          startUp.assemblies.allConstructors.length := more
      obtain ⟨slot, method, runs⟩ :=
        (beforeStartUp_spawned created).runs (ordered _ reached) none
      exact ⟨_, _, slot, method, reached, rfl, runs⟩
  | succ count inductionHypothesis =>
      obtain ⟨engine, done, slot, method, reached, rfl, runs⟩ :=
        inductionHypothesis (Nat.lt_of_succ_lt more)
      have ends := runs.constructorEnds
      have later := Reachable.next reached ends
      obtain ⟨slot', method', runs'⟩ :=
        (runs.spawned ends).runs (ordered _ later) (by simpa using more)
      exact ⟨_, _, slot', method', later, by simp, runs'⟩

theorem exists_running_of_mem
    (created : startUp.threadCreated = true)
    (ordered : ∀ engine, Reached startUp engine →
      ConstructorsOrdered startUp engine)
    {constructor : CLR_RT_MethodDef_Index}
    (member : constructor ∈ startUp.assemblies.allConstructors) :
    ∃ engine done slot method, Reached startUp engine ∧
      methodIndex slot method = constructor ∧
      Running startUp done slot method engine := by
  obtain ⟨count, more, isConstructor⟩ := List.getElem_of_mem member
  obtain ⟨engine, done, slot, method, reached, rfl, runs⟩ :=
    exists_running created ordered more
  refine ⟨engine, done, slot, method, reached, ?_, runs⟩
  obtain ⟨rest, all⟩ := runs.isPrefix
  rw [← isConstructor]
  simp [← all]

theorem linkedInOrder_of_ordered
    (created : startUp.threadCreated = true)
    (ordered : ∀ engine, Reached startUp engine →
      ConstructorsOrdered startUp engine) :
    LinkedInOrder startUp.assemblies := by
  intro slot assembly isAssembly nonempty target isTarget isNonempty
  obtain ⟨constructor, member⟩ := List.exists_mem_of_ne_nil _ nonempty
  obtain ⟨other, isOther⟩ := List.exists_mem_of_ne_nil _ isNonempty
  obtain ⟨engine, done, slot', method, reached, rfl, runs⟩ :=
    exists_running_of_mem created ordered (mem_allConstructors member)
  have isDone : ∀ other ∈ startUp.assemblies.staticConstructors target,
      other ∈ done := by
    intro other isOther
    rw [← ended_mem]
    exact (ordered engine reached).afterReferences _ _ [] runs.history slot
      assembly isAssembly member target isTarget other isOther
  have constructorSlot := assembly_of_mem member
  have otherSlot := assembly_of_mem isOther
  have less := less_of_isPrefix runs.isPrefix (isDone other isOther)
  rw [CLR_RT_MethodDef_Index.Assembly, highHalf_eq] at constructorSlot otherSlot
  have differs : target ≠ slot := by
    rintro rfl
    exact Nat.lt_irrefl _ (less_of_isPrefix runs.isPrefix (isDone _ member))
  omega

end Promised

/-- In every state of a start-up the constructors are run as promised exactly
when the allocations for all of them succeed, they have code, and the assemblies
are linked in the order of their references. -/
theorem staticConstructors_ordered_iff (startUp : StartUp) :
    (∀ engine, Reached startUp engine → ConstructorsOrdered startUp engine) ↔
      StartUpCondition startUp := by
  constructor
  · intro ordered
    cases created : startUp.threadCreated with
    | false => exact .inl created
    | true =>
        refine .inr ⟨?_, ?_, linkedInOrder_of_ordered created ordered⟩
        · intro attempt more
          obtain ⟨engine, done, slot, method, _, rfl, runs⟩ :=
            exists_running created ordered more
          exact runs.succeeds.1
        · intro constructor member
          obtain ⟨engine, done, slot, method, _, rfl, runs⟩ :=
            exists_running_of_mem created ordered member
          exact runs.succeeds.2
  · rintro (notCreated | ⟨allocates, coded, linked⟩) engine reached
    · obtain rfl := reached.notCreated notCreated
      exact beforeStartUp_ordered startUp
    · cases created : startUp.threadCreated with
      | false =>
          obtain rfl := reached.notCreated created
          exact beforeStartUp_ordered startUp
      | true =>
          rcases reached.goesWell created allocates coded with
            ⟨done, slot, method, runs⟩ | ⟨done, finished⟩
          · exact runs.ordered linked
          · exact finished.ordered linked

/-! ## Assemblies linked against the order of their references -/

/-- The assembly in one slot references the one in another. -/
def References (assemblies : ResolvedAssemblies) (slot target : Nat) : Prop :=
  ∃ assembly, assemblies.assembly slot = some assembly ∧
    target ∈ assembly.m_pCrossReference_AssemblyRef

/-- An assembly with one method, a static constructor. -/
def oneConstructor (m_idx : UInt32) (references : List Nat) :
    CLR_RT_Assembly where
  m_idx
  methodDefs := [{ RVA := 0, flags := MD_StaticConstructor }]
  m_nativeCode := none
  m_pCrossReference_AssemblyRef := references

theorem two_cases
    {slot : Nat}
    {assembly : CLR_RT_Assembly}
    (isAssembly : [some (oneConstructor 1 [1]), some (oneConstructor 2 [])][slot]?
      = some (some assembly)) :
    slot = 0 ∧ assembly = oneConstructor 1 [1] ∨
      slot = 1 ∧ assembly = oneConstructor 2 [] := by
  match slot with
  | 0 => simpa [eq_comm] using isAssembly
  | 1 => simpa [eq_comm] using isAssembly
  | slot + 2 => simp at isAssembly

/-- An assembly in front of the one it references. -/
def againstReferences : StartUp where
  assemblies := {
    m_assemblies := [some (oneConstructor 1 [1]), some (oneConstructor 2 [])]
    max_le := by decide
    idx_eq := fun slot assembly isAssembly => by
      rcases two_cases isAssembly with ⟨rfl, rfl⟩ | ⟨rfl, rfl⟩
      · rfl
      · rfl
    methods_le := fun slot assembly isAssembly => by
      rcases two_cases isAssembly with ⟨rfl, rfl⟩ | ⟨rfl, rfl⟩
      · decide
      · decide
    resolved := fun slot assembly isAssembly target isTarget => by
      rcases two_cases isAssembly with ⟨rfl, rfl⟩ | ⟨rfl, rfl⟩
      · obtain rfl := List.mem_singleton.mp isTarget
        exact ⟨oneConstructor 2 [], rfl⟩
      · cases isTarget }
  flags := fun _ => 0
  notExecuted := fun _ => by decide
  threadCreated := true
  outcomes := fun _ => .allocated
  referenced := false

/-- An assembly linked in front of the one it references has its constructor
started first, though nothing fails and no references are cyclic. -/
theorem staticConstructors_againstReferences :
    (∀ slot, ¬Relation.TransGen (References againstReferences.assemblies)
      slot slot) ∧
    ∃ engine, Reached againstReferences engine ∧
      ¬ConstructorsOrdered againstReferences engine := by
  constructor
  · have onlyOne : ∀ slot target,
        Relation.TransGen (References againstReferences.assemblies) slot
          target → slot = 0 ∧ target = 1 := by
      have direct : ∀ slot target,
          References againstReferences.assemblies slot target →
            slot = 0 ∧ target = 1 := by
        rintro slot target ⟨assembly, isAssembly, isTarget⟩
        rcases two_cases (assembly_eq_some.mp isAssembly) with
          ⟨rfl, rfl⟩ | ⟨rfl, rfl⟩
        · exact ⟨rfl, List.mem_singleton.mp isTarget⟩
        · cases isTarget
      intro slot target references
      induction references with
      | single first => exact direct _ _ first
      | tail _ last inductionHypothesis =>
          exact ⟨inductionHypothesis.1, (direct _ _ last).2⟩
    intro slot cycle
    have both := onlyOne slot slot cycle
    omega
  · refine ⟨_, .start rfl, fun ordered => ?_⟩
    have ended := ordered.afterReferences [] (methodIndex 0 0) [] (by decide) 0
      (oneConstructor 1 [1]) rfl (by decide) 1 (by decide) (methodIndex 1 0)
      (by decide)
    cases ended

end StaticConstructors

end NanoClr
