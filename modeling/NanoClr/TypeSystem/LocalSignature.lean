import NanoClr.TypeSystem.InitializeLocals

/-!
# Signatures of locals

The grammar of the signatures of locals, and what the parser of signatures and
the loop of `InitializeLocals` read in them.
-/

namespace NanoClr

namespace TypeSystem

/-! ## The grammar -/

/-- A token of a signature, with the bytes that are read as it. -/
structure Token where
  bytes : List UInt8
  table : TypeTable
  index : UInt32
  reads : ∀ rest, CLR_TkFromStream (bytes ++ rest) = some ((table, index), rest)

/-- A type behind its modifiers: a basic type up to `object`, or a class or a
structure by its token. -/
inductive BaseType where
  | basic (dt : UInt8)
      (isBasic : DATATYPE_VOID < dt ∧ dt ≤ DATATYPE_OBJECT)
  | ofClass (token : Token)
  | ofValueType (token : Token)

namespace BaseType

/-- The tag in front of a type. -/
def tag : BaseType → UInt8
  | basic dt _ => dt
  | ofClass _ => DATATYPE_CLASS
  | ofValueType _ => DATATYPE_VALUETYPE

/-- The bytes behind the tag of a type. -/
def tokenBytes : BaseType → List UInt8
  | basic _ _ => []
  | ofClass token => token.bytes
  | ofValueType token => token.bytes

end BaseType

/-- A local: pinned or not, by reference or not, with so many levels of arrays
around a type. -/
structure LocalVariable where
  pinned : Bool
  byRef : Bool
  arrays : Nat
  base : BaseType

namespace LocalVariable

/-- The type of a local, as a field or a parameter of the type has it. -/
def typeBytes (variable_ : LocalVariable) : List UInt8 :=
  (if variable_.byRef then [DATATYPE_BYREF] else []) ++
    (List.replicate variable_.arrays DATATYPE_SZARRAY ++
      variable_.base.tag :: variable_.base.tokenBytes)

/-- The bytes of a local. -/
def bytes (variable_ : LocalVariable) : List UInt8 :=
  (if variable_.pinned then [DATATYPE_TYPE_PINNED] else []) ++
    variable_.typeBytes

end LocalVariable

/-- The signature of the locals of a method. -/
def localsSignature (declared : List LocalVariable) : List UInt8 :=
  declared.flatMap LocalVariable.bytes

/-! ## What the types stand for -/

section Elements

variable (typeSystem : CLR_RT_TypeSystem) (assm : CLR_RT_Assembly)

/-- The element behind a tag and a token.  A specification is that of an array,
or repeats the tag. -/
def tokenElement (tag : UInt8) (token : Token) : Option Element :=
  if token.table = .TBL_TypeSpec then do
    let sub ← (typeSpecElement typeSystem assm assm.typeSpecs.length
      token.index).join
    if 0 < sub.m_levels ∨ sub.m_dt = tag then some sub else none
  else do
    let m_cls ← (resolveToken typeSystem assm token.table token.index).join
    some { m_fByRef := false, m_levels := 0, m_dt := tag, m_cls }

/-- The element of a type, where its token leads to one. -/
def BaseType.element : BaseType → Option Element
  | basic dt _ => do
      let m_cls ← (dataTypeClass typeSystem.g_CLR_RT_WellKnownTypes dt).join
      some { m_fByRef := false, m_levels := 0, m_dt := dt, m_cls }
  | ofClass token => tokenElement typeSystem assm DATATYPE_CLASS token
  | ofValueType token => tokenElement typeSystem assm DATATYPE_VALUETYPE token

end Elements

/-! ## Reading -/

section Reading

variable {typeSystem : CLR_RT_TypeSystem} {assm : CLR_RT_Assembly}
  {element : Element} {rest : List UInt8}

/-- No basic type has the tag of a modifier or of a token. -/
theorem BaseType.basic_ne
    {dt : UInt8}
    (isBasic : DATATYPE_VOID < dt ∧ dt ≤ DATATYPE_OBJECT) :
    dt ≠ DATATYPE_BYREF ∧ dt ≠ DATATYPE_SZARRAY ∧ dt ≠ DATATYPE_CLASS ∧
      dt ≠ DATATYPE_VALUETYPE ∧ dt ≠ DATATYPE_VOID ∧
        dt ≠ DATATYPE_TYPE_PINNED := by
  refine ⟨?_, ?_, ?_, ?_, ?_, ?_⟩
  all_goals
    rintro rfl
    revert isBasic
    decide

theorem tokenElement_spec
    {tag : UInt8}
    {token : Token}
    (spec : token.table = .TBL_TypeSpec)
    (reads : tokenElement typeSystem assm tag token = some element) :
    typeSpecElement typeSystem assm assm.typeSpecs.length token.index =
        some (some element) ∧
      (0 < element.m_levels ∨ element.m_dt = tag) := by
  rw [tokenElement, if_pos spec] at reads
  simp only [Option.bind_eq_bind, Option.bind_eq_some_iff, Option.join_eq_some_iff]
    at reads
  obtain ⟨sub, found, chosen⟩ := reads
  split at chosen
  case isTrue fits =>
    cases chosen
    exact ⟨found, fits⟩
  case isFalse => cases chosen

theorem tokenElement_resolved
    {tag : UInt8}
    {token : Token}
    (resolved : token.table ≠ .TBL_TypeSpec)
    (reads : tokenElement typeSystem assm tag token = some element) :
    ∃ m_cls, resolveToken typeSystem assm token.table token.index =
        some (some m_cls) ∧
      element = { m_fByRef := false, m_levels := 0, m_dt := tag, m_cls } := by
  rw [tokenElement, if_neg resolved] at reads
  simp only [Option.bind_eq_bind, Option.bind_eq_some_iff, Option.join_eq_some_iff,
    Option.some.injEq] at reads
  obtain ⟨m_cls, found, rfl⟩ := reads
  exact ⟨m_cls, found, rfl⟩

/-! ### The parser of signatures -/

section Advance

variable {specs : UInt32 → Option (Option Element)} {m_fByRef : Bool}
  {m_levels : Nat}

theorem advanceType_arrays (arrays : Nat) (m_sig : List UInt8) :
    advanceType typeSystem assm specs m_fByRef m_levels
        (List.replicate arrays DATATYPE_SZARRAY ++ m_sig) =
      advanceType typeSystem assm specs m_fByRef (m_levels + arrays)
        m_sig := by
  induction arrays generalizing m_levels with
  | zero => rfl
  | succ arrays inductionHypothesis =>
      rw [List.replicate_succ, List.cons_append, advanceType,
        if_neg (by decide), if_pos rfl, inductionHypothesis]
      congr 1
      omega

/-- A type that a token names, behind its modifiers. -/
theorem advanceType_token
    {tag : UInt8}
    {token : Token}
    (named : tag = DATATYPE_CLASS ∨ tag = DATATYPE_VALUETYPE)
    (reads : tokenElement typeSystem assm tag token = some element) :
    ∃ byRef, advanceType typeSystem assm
        (typeSpecElement typeSystem assm assm.typeSpecs.length) m_fByRef
        m_levels (tag :: (token.bytes ++ rest)) =
      some (some ({ m_fByRef := byRef,
                    m_levels := element.m_levels + m_levels,
                    m_dt := element.m_dt, m_cls := element.m_cls }, rest)) := by
  have notModifier : tag ≠ DATATYPE_BYREF ∧ tag ≠ DATATYPE_SZARRAY := by
    rcases named with rfl | rfl
    · decide
    · decide
  rw [advanceType, if_neg notModifier.1, if_neg notModifier.2, if_pos named,
    token.reads]
  by_cases spec : token.table = .TBL_TypeSpec
  · have found := (tokenElement_spec spec reads).1
    exact ⟨element.m_fByRef, by simp [spec, found]⟩
  · obtain ⟨m_cls, found, rfl⟩ := tokenElement_resolved spec reads
    exact ⟨m_fByRef, by simp [spec, found]⟩

/-- A type behind its modifiers. -/
theorem advanceType_base
    (base : BaseType)
    (reads : base.element typeSystem assm = some element) :
    ∃ byRef, advanceType typeSystem assm
        (typeSpecElement typeSystem assm assm.typeSpecs.length) m_fByRef
        m_levels (base.tag :: (base.tokenBytes ++ rest)) =
      some (some ({ m_fByRef := byRef,
                    m_levels := element.m_levels + m_levels,
                    m_dt := element.m_dt, m_cls := element.m_cls }, rest)) := by
  cases base with
  | basic dt isBasic =>
      obtain ⟨notByRef, notArray, notClass, notValueType, -, -⟩ :=
        BaseType.basic_ne isBasic
      simp only [BaseType.element, Option.bind_eq_bind,
        Option.bind_eq_some_iff, Option.join_eq_some_iff, Option.some.injEq]
        at reads
      obtain ⟨m_cls, found, rfl⟩ := reads
      refine ⟨m_fByRef, ?_⟩
      simp [BaseType.tag, BaseType.tokenBytes, advanceType, notByRef, notArray,
        notClass, notValueType, found]
  | ofClass token => exact advanceType_token (.inl rfl) reads
  | ofValueType token => exact advanceType_token (.inr rfl) reads

end Advance

/-- The parser of signatures reads the type of a local. -/
theorem advance_typeBytes
    (variable_ : LocalVariable)
    (reads : variable_.base.element typeSystem assm = some element) :
    ∃ byRef, advance typeSystem assm (variable_.typeBytes ++ rest) =
      some (some ({ m_fByRef := byRef,
                    m_levels := element.m_levels + variable_.arrays,
                    m_dt := element.m_dt, m_cls := element.m_cls }, rest)) := by
  rw [advance, LocalVariable.typeBytes, List.append_assoc, List.append_assoc,
    List.cons_append]
  cases variable_.byRef with
  | false =>
      rw [if_neg Bool.false_ne_true, List.nil_append, advanceType_arrays,
        Nat.zero_add]
      exact advanceType_base variable_.base reads
  | true =>
      rw [if_pos rfl, List.singleton_append, advanceType, if_pos rfl,
        if_neg Bool.false_ne_true, advanceType_arrays, Nat.zero_add]
      exact advanceType_base variable_.base reads

/-! ### The loop of `InitializeLocals` -/

theorem localType_arrays
    {levels : Nat}
    {pinned : Bool}
    (arrays : Nat)
    (sig : List UInt8) :
    localType typeSystem assm levels pinned
        (List.replicate arrays DATATYPE_SZARRAY ++ sig) =
      localType typeSystem assm (levels + arrays) pinned sig := by
  induction arrays generalizing levels with
  | zero => rfl
  | succ arrays inductionHypothesis =>
      rw [List.replicate_succ, List.cons_append, localType,
        if_neg (by decide), if_pos (.inl rfl), inductionHypothesis]
      congr 1
      omega

/-- The class behind a tag and a token. -/
theorem localClass_token
    {tag : UInt8}
    {token : Token}
    (reads : tokenElement typeSystem assm tag token = some element) :
    localClass typeSystem assm token.table token.index =
      some (some (element.m_cls, element.m_levels)) := by
  by_cases spec : token.table = .TBL_TypeSpec
  · have found := (tokenElement_spec spec reads).1
    simp [spec, localClass, found]
  · obtain ⟨m_cls, found, rfl⟩ := tokenElement_resolved spec reads
    cases named : token.table with
    | TBL_TypeDef =>
        rw [named, resolveToken] at found
        cases found
        rfl
    | TBL_TypeRef =>
        simp only [named, resolveToken, Option.bind_eq_bind,
          Option.bind_eq_some_iff, Option.some.injEq] at found
        obtain ⟨target, listed, _, _, rfl⟩ := found
        simp [localClass, listed]
    | TBL_TypeSpec => exact absurd named spec
    | TBL_Max =>
        rw [named, resolveToken] at found
        · cases found
        · simp
        · simp

theorem localType_token
    {tag : UInt8}
    {token : Token}
    {levels : Nat}
    {pinned : Bool}
    (named : tag = DATATYPE_CLASS ∨ tag = DATATYPE_VALUETYPE)
    (reads : tokenElement typeSystem assm tag token = some element) :
    localType typeSystem assm levels pinned (tag :: (token.bytes ++ rest)) =
      some (some ({ dt := tag, cls := element.m_cls,
                    levels := levels + element.m_levels, pinned }, rest)) := by
  have notModifier : tag ≠ DATATYPE_TYPE_PINNED ∧
      ¬ (tag = DATATYPE_SZARRAY ∨ tag = DATATYPE_BYREF) := by
    rcases named with rfl | rfl
    · decide
    · decide
  rw [localType, if_neg notModifier.1, if_neg notModifier.2, if_pos named,
    token.reads]
  simp [localClass_token reads]

/-- A type behind the modifiers of a local. -/
theorem localType_base
    {levels : Nat}
    {pinned : Bool}
    (base : BaseType)
    (reads : base.element typeSystem assm = some element) :
    localType typeSystem assm levels pinned
        (base.tag :: (base.tokenBytes ++ rest)) =
      some (some ({ dt := base.tag, cls := element.m_cls,
                    levels := levels + element.m_levels, pinned }, rest)) := by
  cases base with
  | basic dt isBasic =>
      obtain ⟨notByRef, notArray, notClass, notValueType, notVoid, notPinned⟩ :=
        BaseType.basic_ne isBasic
      simp only [BaseType.element, Option.bind_eq_bind,
        Option.bind_eq_some_iff, Option.join_eq_some_iff, Option.some.injEq]
        at reads
      obtain ⟨m_cls, found, rfl⟩ := reads
      simp [BaseType.tag, BaseType.tokenBytes, localType, lookupClass,
        notByRef, notArray, notClass, notValueType, notVoid, notPinned, found]
  | ofClass token => exact localType_token (.inl rfl) reads
  | ofValueType token => exact localType_token (.inr rfl) reads

/-- What the loop reads in the bytes of a local. -/
def LocalVariable.localType (variable_ : LocalVariable) (element : Element) :
    LocalType where
  dt := variable_.base.tag
  cls := element.m_cls
  levels := variable_.byRef.toNat + variable_.arrays + element.m_levels
  pinned := variable_.pinned

/-- The loop of `InitializeLocals` reads a local up to its end. -/
theorem localType_bytes
    (variable_ : LocalVariable)
    (reads : variable_.base.element typeSystem assm = some element) :
    TypeSystem.localType typeSystem assm 0 false (variable_.bytes ++ rest) =
      some (some (variable_.localType element, rest)) := by
  have behindPinned : ∀ pinned,
      TypeSystem.localType typeSystem assm 0 pinned
          (variable_.typeBytes ++ rest) =
        some (some ({ variable_.localType element with pinned }, rest)) := by
    intro pinned
    rw [LocalVariable.typeBytes, List.append_assoc, List.append_assoc,
      List.cons_append, LocalVariable.localType]
    cases variable_.byRef with
    | false =>
        rw [if_neg Bool.false_ne_true, List.nil_append, localType_arrays]
        exact localType_base variable_.base reads
    | true =>
        rw [if_pos rfl, List.singleton_append, TypeSystem.localType,
          if_neg (by decide), if_pos (.inr rfl), localType_arrays]
        exact localType_base variable_.base reads
  rw [LocalVariable.bytes, List.append_assoc]
  cases pinned : variable_.pinned with
  | false =>
      rw [if_neg Bool.false_ne_true, List.nil_append, behindPinned false,
        ← pinned, LocalVariable.localType]
  | true =>
      rw [if_pos rfl, List.singleton_append, TypeSystem.localType, if_pos rfl,
        behindPinned true, ← pinned, LocalVariable.localType]

end Reading

end TypeSystem

end NanoClr
