import NanoClr.StaticConstructors.SpawnStaticConstructor

/-!
# The lists of static constructors

The static constructors of the assemblies in the order of their slots and
methods, which is the order of their indices.
-/

namespace NanoClr

namespace StaticConstructors

open TypeSystem

/-! ## The constructors of an assembly -/

namespace ResolvedAssemblies

variable (assemblies : ResolvedAssemblies)

/-- The static constructors of the assembly in a slot, from a method on. -/
def constructorsFrom (slot method : Nat) : List CLR_RT_MethodDef_Index :=
  match assemblies.assembly slot with
  | none => []
  | some assembly =>
      ((List.range' method (assembly.methodDefs.length - method)).filter
        assembly.isStaticConstructor).map (methodIndex slot)

/-- The static constructors of an assembly in order. -/
def staticConstructors (slot : Nat) : List CLR_RT_MethodDef_Index :=
  assemblies.constructorsFrom slot 0

/-- The static constructors of the assemblies before a slot. -/
def constructorsBefore (slot : Nat) : List CLR_RT_MethodDef_Index :=
  (List.range slot).flatMap assemblies.staticConstructors

/-- The static constructors of all assemblies in order. -/
def allConstructors : List CLR_RT_MethodDef_Index :=
  assemblies.constructorsBefore assemblies.m_assemblies.length

variable {assemblies}

theorem assembly_eq_some {slot : Nat} {assembly : CLR_RT_Assembly} :
    assemblies.assembly slot = some assembly ↔
      assemblies.m_assemblies[slot]? = some (some assembly) := by
  rw [ResolvedAssemblies.assembly, Option.join_eq_some_iff]

theorem slot_lt
    {slot : Nat}
    {assembly : CLR_RT_Assembly}
    (isAssembly : assemblies.assembly slot = some assembly) :
    slot < assemblies.m_assemblies.length :=
  (List.getElem?_eq_some_iff.mp (assembly_eq_some.mp isAssembly)).1

end ResolvedAssemblies

open ResolvedAssemblies

variable {assemblies : ResolvedAssemblies}

theorem isStaticConstructor_lt
    {assembly : CLR_RT_Assembly}
    {method : Nat}
    (isConstructor : assembly.isStaticConstructor method = true) :
    method < assembly.methodDefs.length := by
  unfold CLR_RT_Assembly.isStaticConstructor at isConstructor
  split at isConstructor
  · cases isConstructor
  next isMethod => exact (List.getElem?_eq_some_iff.mp isMethod).1

section Indices

variable {slot method : Nat} (slotFits : slot < c_MaxAssemblies)
  (methodFits : method ≤ 0xFFFF)

include slotFits methodFits

theorem toNat_methodIndex :
    (methodIndex slot method).m_data.toNat = (slot + 1) * 2 ^ 16 + method := by
  unfold c_MaxAssemblies at slotFits
  have slotValue : (UInt32.ofNat (slot + 1)).toNat = slot + 1 :=
    UInt32.toNat_ofNat_of_lt' (by show _ < 2 ^ 32; omega)
  have methodValue : (UInt32.ofNat method).toNat = method :=
    UInt32.toNat_ofNat_of_lt' (by show _ < 2 ^ 32; omega)
  rw [methodIndex, toNat_setIndex (by omega) (by omega), slotValue,
    methodValue]

theorem methodIndex_Assembly :
    (methodIndex slot method).Assembly = slot + 1 := by
  rw [CLR_RT_MethodDef_Index.Assembly, highHalf_eq,
    toNat_methodIndex slotFits methodFits]
  omega

theorem methodIndex_Method :
    (methodIndex slot method).Method = method := by
  rw [CLR_RT_MethodDef_Index.Method, lowHalf_eq,
    toNat_methodIndex slotFits methodFits]
  omega

end Indices

/-- The index behind the one of a method that is not the last possible one. -/
theorem nextIndex_Method
    {slot method : Nat}
    (slotFits : slot < c_MaxAssemblies)
    (methodFits : method < 0xFFFF) :
    (CLR_RT_MethodDef_Index.mk
      ((methodIndex slot method).m_data + 1)).Method = method + 1 := by
  rw [CLR_RT_MethodDef_Index.Method, lowHalf_eq, UInt32.toNat_add,
    toNat_methodIndex slotFits (Nat.le_of_lt methodFits)]
  unfold c_MaxAssemblies at slotFits
  have one : (1 : UInt32).toNat = 1 := rfl
  rw [one]
  omega

section Constructors

variable {slot : Nat} {assembly : CLR_RT_Assembly}
  (isAssembly : assemblies.assembly slot = some assembly)

include isAssembly

theorem slotFits_of_assembly : slot < c_MaxAssemblies :=
  Nat.lt_of_lt_of_le (slot_lt isAssembly) assemblies.max_le

theorem methodFits_of_lt
    {method : Nat}
    (isMethod : method < assembly.methodDefs.length) :
    method < 0xFFFF :=
  Nat.lt_of_lt_of_le isMethod
    (assemblies.methods_le slot assembly (assembly_eq_some.mp isAssembly))

theorem m_idx_eq : assembly.m_idx = .ofNat (slot + 1) :=
  assemblies.idx_eq slot assembly (assembly_eq_some.mp isAssembly)

theorem findNextStaticConstructor_eq (idx : CLR_RT_MethodDef_Index) :
    assembly.FindNextStaticConstructor idx =
      (assemblies.constructorsFrom slot idx.Method).head? := by
  rw [CLR_RT_Assembly.FindNextStaticConstructor, constructorsFrom, isAssembly]
  simp only [List.head?_map, List.head?_filter, m_idx_eq isAssembly]
  rfl

/-- The first constructor from a method on, and those behind it. -/
theorem constructorsFrom_cons
    {method : Nat}
    {constructor : CLR_RT_MethodDef_Index}
    {rest : List CLR_RT_MethodDef_Index}
    (constructors : assemblies.constructorsFrom slot method =
      constructor :: rest) :
    ∃ first, first < assembly.methodDefs.length ∧
      constructor = methodIndex slot first ∧
      rest = assemblies.constructorsFrom slot (first + 1) := by
  induction count : assembly.methodDefs.length - method
    generalizing method with
  | zero =>
      rw [constructorsFrom, isAssembly] at constructors
      simp [count] at constructors
  | succ fewer inductionHypothesis =>
      have next : assembly.methodDefs.length - (method + 1) = fewer := by
        omega
      have same : assemblies.constructorsFrom slot method =
          (if assembly.isStaticConstructor method then [methodIndex slot method]
            else []) ++ assemblies.constructorsFrom slot (method + 1) := by
        simp only [constructorsFrom, isAssembly, count, next,
          List.range'_succ, List.filter_cons]
        split <;> rfl
      rw [same] at constructors
      split at constructors
      next isConstructor =>
        obtain ⟨rfl, rfl⟩ := List.cons.inj constructors
        exact ⟨method, isStaticConstructor_lt isConstructor, rfl, rfl⟩
      next => exact inductionHypothesis constructors next

end Constructors

theorem constructorsBefore_succ (slot : Nat) :
    assemblies.constructorsBefore (slot + 1) =
      assemblies.constructorsBefore slot ++
        assemblies.staticConstructors slot := by
  simp [constructorsBefore, List.range_succ]

theorem constructorsBefore_isPrefix
    (assemblies : ResolvedAssemblies)
    {slot later : Nat}
    (isEarlier : slot ≤ later) :
    assemblies.constructorsBefore slot <+:
      assemblies.constructorsBefore later := by
  induction isEarlier with
  | refl => exact List.prefix_rfl
  | step _ inductionHypothesis =>
      rw [constructorsBefore_succ]
      exact inductionHypothesis.trans (List.prefix_append _ _)

theorem mem_constructorsFrom
    {slot method : Nat}
    {constructor : CLR_RT_MethodDef_Index}
    (member : constructor ∈ assemblies.constructorsFrom slot method) :
    ∃ assembly other, assemblies.assembly slot = some assembly ∧
      other < assembly.methodDefs.length ∧
      constructor = methodIndex slot other := by
  unfold constructorsFrom at member
  split at member
  · cases member
  next assembly isAssembly =>
    obtain ⟨other, isConstructor, rfl⟩ := List.mem_map.mp member
    exact ⟨assembly, other, isAssembly,
      isStaticConstructor_lt (List.mem_filter.mp isConstructor).2, rfl⟩

theorem mem_staticConstructors
    {slot method : Nat}
    {constructor : CLR_RT_MethodDef_Index}
    (member : constructor ∈ assemblies.constructorsFrom slot method) :
    constructor ∈ assemblies.staticConstructors slot := by
  unfold staticConstructors constructorsFrom
  unfold constructorsFrom at member
  split at member
  · cases member
  next assembly isAssembly =>
    obtain ⟨other, isConstructor, rfl⟩ := List.mem_map.mp member
    obtain ⟨inRange, isConstructor⟩ := List.mem_filter.mp isConstructor
    simp only [List.mem_map, List.mem_filter, List.mem_range'_1]
    have isMethod := isStaticConstructor_lt isConstructor
    exact ⟨other, ⟨⟨Nat.zero_le _, by omega⟩, isConstructor⟩, rfl⟩

theorem assembly_of_constructor
    {slot method : Nat}
    {constructor : CLR_RT_MethodDef_Index}
    (member : constructor ∈ assemblies.constructorsFrom slot method) :
    constructor.Assembly - 1 = slot := by
  obtain ⟨assembly, other, isAssembly, isMethod, rfl⟩ :=
    mem_constructorsFrom member
  rw [methodIndex_Assembly (slotFits_of_assembly isAssembly)
    (Nat.le_of_lt (methodFits_of_lt isAssembly isMethod)),
    Nat.add_sub_cancel]

/-- The slot of a constructor is the one that its index names. -/
theorem assembly_of_mem
    {slot : Nat}
    {constructor : CLR_RT_MethodDef_Index}
    (member : constructor ∈ assemblies.staticConstructors slot) :
    constructor.Assembly = slot + 1 := by
  obtain ⟨assembly, method, isAssembly, isMethod, rfl⟩ :=
    mem_constructorsFrom member
  exact methodIndex_Assembly (slotFits_of_assembly isAssembly)
    (Nat.le_of_lt (methodFits_of_lt isAssembly isMethod))

theorem mem_constructorsBefore
    {slot : Nat}
    {constructor : CLR_RT_MethodDef_Index} :
    constructor ∈ assemblies.constructorsBefore slot ↔
      ∃ other < slot, constructor ∈ assemblies.staticConstructors other := by
  simp [constructorsBefore]

/-- The constructors of one assembly are in the order of their indices. -/
theorem constructorsFrom_sorted (slot method : Nat) :
    (assemblies.constructorsFrom slot method).Pairwise fun left right =>
      left.m_data.toNat < right.m_data.toNat := by
  unfold constructorsFrom
  split
  · exact List.Pairwise.nil
  next assembly isAssembly =>
    rw [List.pairwise_map]
    have sorted : ((List.range' method (assembly.methodDefs.length - method)
        ).filter assembly.isStaticConstructor).Pairwise (· < ·) :=
      List.Pairwise.sublist List.filter_sublist List.pairwise_lt_range'
    apply sorted.imp_of_mem
    intro left right isLeft isRight less
    have fits : ∀ {number}, number ∈ List.filter assembly.isStaticConstructor
        (List.range' method (assembly.methodDefs.length - method)) →
        number ≤ 0xFFFF := fun member =>
      Nat.le_of_lt (methodFits_of_lt isAssembly
        (isStaticConstructor_lt (List.mem_filter.mp member).2))
    rw [toNat_methodIndex (slotFits_of_assembly isAssembly) (fits isLeft),
      toNat_methodIndex (slotFits_of_assembly isAssembly) (fits isRight)]
    omega

/-- All constructors are in the order of their indices. -/
theorem constructorsBefore_sorted
    (assemblies : ResolvedAssemblies)
    (slot : Nat) :
    (assemblies.constructorsBefore slot).Pairwise fun left right =>
      left.m_data.toNat < right.m_data.toNat := by
  induction slot with
  | zero => exact List.Pairwise.nil
  | succ slot inductionHypothesis =>
      rw [constructorsBefore_succ, List.pairwise_append]
      refine ⟨inductionHypothesis, constructorsFrom_sorted slot 0, ?_⟩
      intro left isLeft right isRight
      obtain ⟨other, isBefore, isLeft⟩ := mem_constructorsBefore.mp isLeft
      have leftSlot := assembly_of_mem isLeft
      have rightSlot := assembly_of_mem isRight
      rw [CLR_RT_MethodDef_Index.Assembly, highHalf_eq] at leftSlot rightSlot
      omega

theorem constructorsBefore_nodup
    (assemblies : ResolvedAssemblies)
    (slot : Nat) :
    (assemblies.constructorsBefore slot).Nodup :=
  (constructorsBefore_sorted assemblies slot).imp fun less => by
    rintro rfl
    exact Nat.lt_irrefl _ less

end StaticConstructors

end NanoClr
