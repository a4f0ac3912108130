import NanoClr.TypeSystem.IsInstanceOf

/-!
# The test for a subtype

`IsInstanceOf` and the closure of base classes, interfaces and covariance. They
agree except for a deeper array, and where an interface or a semantics is in
the way.
-/

namespace NanoClr

namespace TypeSystem

/-- The type of an object. -/
def TypeHierarchy.typeOf (hierarchy : TypeHierarchy) :
    ManagedObject → ArrayType Nat
  | .instance_ cls => .named cls
  | .array element => element.array
  | .typeObject _ => .named hierarchy.m_Type

namespace TypeHierarchy

open TypeDescriptor

/-- The relations that subtyping is the closure of. -/
def arrayHierarchy (hierarchy : TypeHierarchy) : ArrayHierarchy Nat where
  above := fun cls upper =>
    (hierarchy.m_target cls).extends_ = some upper ∨
      upper ∈ (hierarchy.m_target cls).interfaces
  isReference := fun cls =>
    hierarchy.semantics cls = .Class ∨ hierarchy.semantics cls = .Interface
  arrayClass := hierarchy.m_Array

/-- The classes from a class up. -/
def Chain (hierarchy : TypeHierarchy) : Nat → Nat → Prop :=
  Relation.ReflTransGen fun cls parent =>
    (hierarchy.m_target cls).extends_ = some parent

/-- A class of the chain is the target or lists it as an interface. -/
def Listed (hierarchy : TypeHierarchy) (cls target : Nat) : Prop :=
  ∃ ancestor, hierarchy.Chain cls ancestor ∧
    (ancestor = target ∨
      hierarchy.semantics target = .Interface ∧
        target ∈ (hierarchy.m_target ancestor).interfaces)

/-- The target is an interface that a class of the chain lists, or above it. -/
def ViaInterface (hierarchy : TypeHierarchy) (cls target : Nat) : Prop :=
  ∃ ancestor interface, hierarchy.Chain cls ancestor ∧
    interface ∈ (hierarchy.m_target ancestor).interfaces ∧
      hierarchy.arrayHierarchy.AboveAll interface target

/-- What is inherited by an interface is listed by a class as well. -/
def Flattened (hierarchy : TypeHierarchy) (cls target : Nat) : Prop :=
  hierarchy.ViaInterface cls target → hierarchy.Listed cls target

/-- The objects and targets for which the test is right. -/
def Regular (hierarchy : TypeHierarchy) :
    ManagedObject → ArrayType Nat → Prop
  | .instance_ cls, target =>
      target.levels = 0 → hierarchy.Flattened cls target.cls
  | .array element, target =>
      (target.levels ≤ element.levels →
          hierarchy.arrayHierarchy.AboveAll hierarchy.m_Array target.cls) ∧
        (target.levels = element.levels + 1 → element.cls ≠ target.cls →
          hierarchy.arrayHierarchy.AboveAll element.cls target.cls →
            (hierarchy.arrayHierarchy.isReference element.cls ↔
              hierarchy.semantics element.cls =
                  hierarchy.semantics target.cls ∧
                hierarchy.Listed element.cls target.cls))
  | .typeObject reflected, target =>
      (target.levels = 0 →
          hierarchy.Flattened hierarchy.m_Type target.cls ∧
            (0 < reflected.levels →
              hierarchy.arrayHierarchy.AboveAll hierarchy.m_Type target.cls →
                (hierarchy.m_target hierarchy.m_Type).dataType =
                  (hierarchy.m_target target.cls).dataType)) ∧
        (0 < target.levels → target.levels < reflected.levels →
          (hierarchy.m_target hierarchy.m_Type).dataType =
              (hierarchy.m_target target.cls).dataType →
            hierarchy.semantics hierarchy.m_Type =
                hierarchy.semantics target.cls →
              ¬ hierarchy.Listed hierarchy.m_Type target.cls) ∧
        (0 < target.levels → target.levels = reflected.levels →
          hierarchy.semantics reflected.cls = hierarchy.semantics target.cls →
            ¬ hierarchy.Listed reflected.cls target.cls)

section Walk

variable {hierarchy : TypeHierarchy} {cls target : Nat}

theorem chain_above
    {ancestor : Nat}
    (chain : hierarchy.Chain cls ancestor) :
    hierarchy.arrayHierarchy.AboveAll cls ancestor :=
  Relation.ReflTransGen.mono (fun _ _ parent => Or.inl parent) _ _ chain

theorem listed_above (listed : hierarchy.Listed cls target) :
    hierarchy.arrayHierarchy.AboveAll cls target := by
  have ⟨ancestor, chain, reached⟩ := listed
  rcases reached with same | ⟨_, member⟩
  · rw [← same]
    exact chain_above chain
  · exact (chain_above chain).tail (Or.inr member)

/-- A target is reached by classes alone, or through an interface. -/
theorem aboveAll_iff :
    hierarchy.arrayHierarchy.AboveAll cls target ↔
      hierarchy.Chain cls target ∨ hierarchy.ViaInterface cls target := by
  constructor
  · intro above
    induction above using Relation.ReflTransGen.head_induction_on with
    | refl => exact Or.inl .refl
    | head step rest inductionHypothesis =>
        rcases step with parent | member
        · rcases inductionHypothesis with chain | via
          · exact Or.inl (.head parent chain)
          · have ⟨ancestor, interface, chain, member, onward⟩ := via
            exact Or.inr ⟨ancestor, interface, .head parent chain, member,
              onward⟩
        · exact Or.inr ⟨_, _, .refl, member, rest⟩
  · rintro (chain | ⟨ancestor, interface, chain, member, onward⟩)
    · exact chain_above chain
    · exact ((chain_above chain).tail (Or.inr member)).trans onward

theorem flattened_iff :
    hierarchy.Flattened cls target ↔
      (hierarchy.Listed cls target ↔
        hierarchy.arrayHierarchy.AboveAll cls target) := by
  rw [aboveAll_iff]
  constructor
  · intro flattened
    constructor
    · intro listed
      exact aboveAll_iff.mp (listed_above listed)
    · rintro (chain | via)
      · exact ⟨target, chain, Or.inl rfl⟩
      · exact flattened via
  · intro same via
    exact same.mpr (Or.inr via)

/-- A class lists the target itself, or the class that it extends does. -/
theorem listed_iff :
    hierarchy.Listed cls target ↔
      (cls = target ∨
        hierarchy.semantics target = .Interface ∧
          target ∈ (hierarchy.m_target cls).interfaces) ∨
        ∃ parent, (hierarchy.m_target cls).extends_ = some parent ∧
          hierarchy.Listed parent target := by
  constructor
  · rintro ⟨ancestor, chain, reached⟩
    rcases Relation.ReflTransGen.cases_head chain with
      same | ⟨parent, extends_, rest⟩
    · rw [← same] at reached
      exact Or.inl reached
    · exact Or.inr ⟨parent, extends_, ancestor, rest, reached⟩
  · rintro (here | ⟨parent, extends_, ancestor, chain, reached⟩)
    · exact ⟨cls, .refl, here⟩
    · exact ⟨ancestor, .head extends_ chain, reached⟩

/-- The walk finds what the classes list. -/
theorem scan_iff :
    hierarchy.scan target cls = true ↔ hierarchy.Listed cls target := by
  induction cls using scan.induct hierarchy target with
  | case1 =>
      rw [scan, if_pos rfl]
      exact iff_of_true rfl ⟨_, .refl, Or.inl rfl⟩
  | case2 cls different listed =>
      rw [scan, if_neg different, if_pos listed]
      exact iff_of_true rfl ⟨cls, .refl, Or.inr listed⟩
  | case3 cls different unlisted parent extends_ inductionHypothesis =>
      rw [scan, if_neg different, if_neg unlisted, listed_iff]
      split
      case h_1 next same =>
        rw [extends_] at same
        cases same
        rw [inductionHypothesis, extends_]
        constructor
        · intro listed
          exact Or.inr ⟨parent, rfl, listed⟩
        · rintro ((same | listed) | ⟨_, ⟨⟩, listed⟩)
          · exact absurd same different
          · exact absurd listed unlisted
          · exact listed
      case h_2 none_ =>
        rw [extends_] at none_
        cases none_
  | case4 cls different unlisted extends_ =>
      rw [scan, if_neg different, if_neg unlisted, listed_iff]
      split
      case h_1 next same =>
        rw [extends_] at same
        cases same
      case h_2 =>
        apply iff_of_false Bool.false_ne_true
        rintro ((same | listed) | ⟨parent, same, _⟩)
        · exact different same
        · exact unlisted listed
        · rw [extends_] at same
          cases same

end Walk

/-! ## Answers -/

section Answers

variable
  {hierarchy : TypeHierarchy}
  {desc descTarget desc' descTarget' : TypeDescriptor}
  {fArray : Bool}

/-- The answer once levels have been stripped from both types. -/
theorem isInstanceOf_iff_scan
    (strip : stripLevels desc descTarget false = (desc', descTarget', fArray))
    (enough : descTarget'.m_levels ≤ desc'.m_levels)
    (ordinary : descTarget'.m_levels = desc'.m_levels ∨
      desc'.m_handlerCls = hierarchy.m_Type) :
    hierarchy.IsInstanceOf desc descTarget = true ↔
      (descTarget'.m_levels < desc'.m_levels →
        (hierarchy.m_target desc'.m_handlerCls).dataType =
          (hierarchy.m_target descTarget'.m_handlerCls).dataType) ∧
      (fArray = true →
        hierarchy.semantics desc'.m_handlerCls =
          hierarchy.semantics descTarget'.m_handlerCls) ∧
      hierarchy.Listed desc'.m_handlerCls descTarget'.m_handlerCls := by
  have other := hierarchy.m_Type_ne
  unfold IsInstanceOf
  rw [strip]
  dsimp only
  rw [if_neg (Nat.not_lt.mpr enough), if_neg (by
    rintro ⟨less, _, wellKnown⟩
    rcases ordinary with same | handler
    · omega
    · rw [handler] at wellKnown
      omega)]
  split
  case isTrue wrong =>
    apply iff_of_false Bool.false_ne_true
    rintro ⟨same, _⟩
    exact wrong.2 (same wrong.1)
  case isFalse sameDataType =>
    split
    case isTrue wrong =>
      apply iff_of_false Bool.false_ne_true
      rintro ⟨_, same, _⟩
      exact wrong.2 (same wrong.1)
    case isFalse sameSemantics =>
      rw [scan_iff]
      constructor
      · intro listed
        refine ⟨?_, ?_, listed⟩
        · intro less
          by_contra different
          exact sameDataType ⟨less, different⟩
        · intro isArray
          by_contra different
          exact sameSemantics ⟨isArray, different⟩
      · rintro ⟨_, _, listed⟩
        exact listed

/-- An array is an instance of every type with fewer levels. -/
theorem isInstanceOf_array
    (strip : stripLevels desc descTarget false = (desc', descTarget', fArray))
    (deeper : 0 < desc'.m_levels)
    (flat : descTarget'.m_levels = 0)
    (isArray : desc'.m_handlerCls = hierarchy.m_Array) :
    hierarchy.IsInstanceOf desc descTarget = true := by
  unfold IsInstanceOf
  rw [strip]
  dsimp only
  rw [if_neg (by omega), if_pos ⟨by omega, flat, Or.inl isArray⟩]

/-- Nothing is an instance of a type with more levels. -/
theorem isInstanceOf_shallower (less : desc.m_levels < descTarget.m_levels) :
    hierarchy.IsInstanceOf desc descTarget = false := by
  unfold IsInstanceOf
  dsimp only
  rw [if_pos (stripLevels_shallower less)]

end Answers

/-! ## Descriptors -/

section Descriptors

variable
  {hierarchy : TypeHierarchy}
  {element target : ArrayType Nat}
  {cls : Nat}

@[simp] theorem m_levels_typeSpec :
    (hierarchy.InitializeFromTypeSpec target).m_levels = target.levels := by
  unfold InitializeFromTypeSpec
  split
  case isTrue flat => exact flat.symm
  case isFalse => rfl

@[simp] theorem m_type_typeSpec :
    (hierarchy.InitializeFromTypeSpec target).m_type = target.cls := by
  unfold InitializeFromTypeSpec
  split <;> rfl

theorem typeSpec_flat (flat : target.levels = 0) :
    hierarchy.InitializeFromTypeSpec target = InitializeFromType target.cls :=
  if_pos flat

/-- A descriptor without levels is compared as its class. -/
theorem isInstanceOf_flat
    {desc : TypeDescriptor}
    (noLevels : desc.m_levels = 0)
    (flat : target.levels = 0) :
    hierarchy.IsInstanceOf desc (hierarchy.InitializeFromTypeSpec target) =
        true ↔
      hierarchy.Listed desc.m_handlerCls target.cls := by
  rw [typeSpec_flat flat, isInstanceOf_iff_scan (stripLevels_done (Or.inl noLevels))
    (Nat.zero_le _) (Or.inl noLevels.symm)]
  constructor
  · rintro ⟨_, _, listed⟩
    exact listed
  · intro listed
    refine ⟨?_, ?_, listed⟩
    · intro less
      rw [noLevels] at less
      exact absurd less (Nat.lt_irrefl 0)
    · intro isArray
      exact absurd isArray Bool.false_ne_true

/-- An object without levels is tested rightly where interfaces are listed. -/
theorem flat_iff
    {desc : TypeDescriptor}
    (noLevels : desc.m_levels = 0) :
    (hierarchy.IsInstanceOf desc (hierarchy.InitializeFromTypeSpec target) =
          true ↔
        hierarchy.arrayHierarchy.Subtype (.named desc.m_handlerCls) target) ↔
      (target.levels = 0 →
        hierarchy.Flattened desc.m_handlerCls target.cls) := by
  by_cases flat : target.levels = 0
  · rw [isInstanceOf_flat noLevels flat,
      ArrayHierarchy.subtype_named_iff flat, flattened_iff]
    exact ⟨fun same _ => same, fun same => same flat⟩
  · have deeper : desc.m_levels <
        (hierarchy.InitializeFromTypeSpec target).m_levels := by
      rw [m_levels_typeSpec]
      omega
    apply iff_of_true
    · apply iff_of_false
      · rw [isInstanceOf_shallower deeper]
        exact Bool.false_ne_true
      · apply ArrayHierarchy.not_subtype_of_shallower
        exact Nat.pos_of_ne_zero flat
    · intro zero
      exact absurd zero flat

/-- The levels that remain of a deeper descriptor. -/
theorem strip_deeper
    {desc : TypeDescriptor}
    (deeper : target.levels < desc.m_levels) :
    stripLevels desc (hierarchy.InitializeFromTypeSpec target) false =
      ({ desc with m_levels := desc.m_levels - target.levels },
        InitializeFromType target.cls, decide (0 < target.levels)) := by
  cases levels : target.levels with
  | zero =>
      rw [typeSpec_flat levels]
      exact stripLevels_done (Or.inr rfl)
  | succ less =>
      have left : desc.m_levels =
          less + 1 + (desc.m_levels - less - 2 + 1) := by omega
      rw [stripLevels_deeper left (by rw [m_levels_typeSpec, levels]),
        m_type_typeSpec,
        show desc.m_levels - less - 2 + 1 = desc.m_levels - (less + 1) by omega]
      rfl

theorem strip_same
    {desc : TypeDescriptor}
    (same : target.levels = desc.m_levels)
    (deep : 0 < target.levels) :
    stripLevels desc (hierarchy.InitializeFromTypeSpec target) false =
      (InitializeFromType desc.m_type, InitializeFromType target.cls,
        true) := by
  have left : desc.m_levels = target.levels - 1 + 1 := by omega
  have right : (hierarchy.InitializeFromTypeSpec target).m_levels =
      target.levels - 1 + 1 := by
    rw [m_levels_typeSpec]
    omega
  rw [stripLevels_same left right, m_type_typeSpec]

/-- Types below the same number of levels are compared by their semantics. -/
theorem isInstanceOf_sameLevels
    {desc : TypeDescriptor}
    (same : target.levels = desc.m_levels)
    (deep : 0 < target.levels) :
    hierarchy.IsInstanceOf desc (hierarchy.InitializeFromTypeSpec target) =
        true ↔
      hierarchy.semantics desc.m_type = hierarchy.semantics target.cls ∧
        hierarchy.Listed desc.m_type target.cls := by
  rw [isInstanceOf_iff_scan (strip_same same deep) (Nat.le_refl _)
    (Or.inl rfl)]
  constructor
  · rintro ⟨_, sameSemantics, listed⟩
    exact ⟨sameSemantics rfl, listed⟩
  · rintro ⟨sameSemantics, listed⟩
    refine ⟨?_, fun _ => sameSemantics, listed⟩
    intro less
    exact absurd less (Nat.lt_irrefl _)

/-- The test for covariance is right when it allows the references. -/
theorem sameLevels_iff
    {elementTarget : Nat} :
    ((hierarchy.semantics cls = hierarchy.semantics elementTarget ∧
          hierarchy.Listed cls elementTarget) ↔
        cls = elementTarget ∨
          hierarchy.arrayHierarchy.isReference cls ∧
            hierarchy.arrayHierarchy.AboveAll cls elementTarget) ↔
      (cls ≠ elementTarget →
        hierarchy.arrayHierarchy.AboveAll cls elementTarget →
          (hierarchy.arrayHierarchy.isReference cls ↔
            hierarchy.semantics cls = hierarchy.semantics elementTarget ∧
              hierarchy.Listed cls elementTarget)) := by
  have above : hierarchy.Listed cls elementTarget →
      hierarchy.arrayHierarchy.AboveAll cls elementTarget := listed_above
  constructor
  · intro covariance different isAbove
    rw [covariance]
    constructor
    · intro reference
      exact Or.inr ⟨reference, isAbove⟩
    · intro either
      exact (either.resolve_left different).1
  · intro regular
    constructor
    · intro listed
      by_cases same : cls = elementTarget
      · exact Or.inl same
      · have isAbove := above listed.2
        exact Or.inr ⟨(regular same isAbove).mpr listed, isAbove⟩
    · rintro (same | ⟨reference, isAbove⟩)
      · rw [same]
        exact ⟨rfl, elementTarget, .refl, Or.inl rfl⟩
      · by_cases same : cls = elementTarget
        · rw [same]
          exact ⟨rfl, elementTarget, .refl, Or.inl rfl⟩
        · exact (regular same isAbove).mp reference

/-- An array is tested as if every type with fewer levels were above it. -/
theorem array_iff :
    (hierarchy.IsInstanceOf
          (hierarchy.InitializeFromObject (.array element))
          (hierarchy.InitializeFromTypeSpec target) = true ↔
        hierarchy.arrayHierarchy.Subtype element.array target) ↔
      hierarchy.Regular (.array element) target := by
  rw [Regular]
  rcases Nat.lt_trichotomy target.levels (element.levels + 1) with
    deeper | same | shallower
  · have isTrue : hierarchy.IsInstanceOf
        (hierarchy.InitializeFromObject (.array element))
        (hierarchy.InitializeFromTypeSpec target) = true :=
      isInstanceOf_array (strip_deeper deeper) (Nat.sub_pos_of_lt deeper) rfl
        rfl
    rw [ArrayHierarchy.subtype_deeper_iff deeper, isTrue]
    constructor
    · intro above
      refine ⟨fun _ => above.mp rfl, ?_⟩
      intro equal
      omega
    · intro regular
      exact iff_of_true rfl (regular.1 (Nat.le_of_lt_succ deeper))
  · rw [isInstanceOf_sameLevels same (by omega),
      ArrayHierarchy.subtype_sameLevels_iff same.symm (Nat.succ_pos _)]
    refine Iff.trans sameLevels_iff ?_
    constructor
    · intro covariance
      refine ⟨?_, fun _ => covariance⟩
      intro less
      omega
    · intro regular
      exact regular.2 same
  · apply iff_of_true
    · apply iff_of_false
      · rw [isInstanceOf_shallower (by
          rw [m_levels_typeSpec]
          exact shallower)]
        exact Bool.false_ne_true
      · exact ArrayHierarchy.not_subtype_of_shallower shallower
    · constructor
      · intro less
        omega
      · intro equal
        omega

theorem isInstanceOf_typeObject
    {reflected : ArrayType Nat}
    (deeper : target.levels < reflected.levels) :
    hierarchy.IsInstanceOf
          (hierarchy.InitializeFromObject (.typeObject reflected))
          (hierarchy.InitializeFromTypeSpec target) = true ↔
      (hierarchy.m_target hierarchy.m_Type).dataType =
          (hierarchy.m_target target.cls).dataType ∧
        (0 < target.levels →
          hierarchy.semantics hierarchy.m_Type =
            hierarchy.semantics target.cls) ∧
        hierarchy.Listed hierarchy.m_Type target.cls := by
  have strip : stripLevels
      (hierarchy.InitializeFromObject (.typeObject reflected))
      (hierarchy.InitializeFromTypeSpec target) false = _ := strip_deeper deeper
  rw [isInstanceOf_iff_scan strip (Nat.zero_le _) (Or.inr rfl)]
  constructor
  · rintro ⟨dataType, sameSemantics, listed⟩
    exact ⟨dataType (Nat.sub_pos_of_lt deeper),
      fun deep => sameSemantics (decide_eq_true deep), listed⟩
  · rintro ⟨dataType, sameSemantics, listed⟩
    exact ⟨fun _ => dataType,
      fun deep => sameSemantics (of_decide_eq_true deep), listed⟩

/-- The object of an array type is tested as if it were an array. -/
theorem typeObject_iff
    {reflected : ArrayType Nat} :
    (hierarchy.IsInstanceOf
          (hierarchy.InitializeFromObject (.typeObject reflected))
          (hierarchy.InitializeFromTypeSpec target) = true ↔
        hierarchy.arrayHierarchy.Subtype (.named hierarchy.m_Type) target) ↔
      hierarchy.Regular (.typeObject reflected) target := by
  rw [Regular]
  by_cases noLevels : reflected.levels = 0
  · refine Iff.trans (flat_iff noLevels) ?_
    constructor
    · intro flattened
      refine ⟨fun flat => ⟨flattened flat, ?_⟩, ?_, ?_⟩
      · intro deep
        omega
      · intro _ less
        omega
      · intro deep same
        omega
    · intro regular flat
      exact (regular.1 flat).1
  · rcases Nat.lt_trichotomy target.levels reflected.levels with
      deeper | same | shallower
    · rw [isInstanceOf_typeObject deeper]
      by_cases flat : target.levels = 0
      · rw [ArrayHierarchy.subtype_named_iff flat, flattened_iff]
        constructor
        · intro test
          refine ⟨fun _ => ⟨?_, fun _ above => (test.mpr above).1⟩, ?_, ?_⟩
          · constructor
            · exact listed_above
            · intro above
              exact (test.mpr above).2.2
          · intro deep
            omega
          · intro deep
            omega
        · intro regular
          have ⟨listed, dataType⟩ := regular.1 flat
          constructor
          · intro test
            exact listed_above test.2.2
          · intro above
            refine ⟨dataType (Nat.pos_of_ne_zero noLevels) above, ?_,
              listed.mpr above⟩
            intro deep
            omega
      · have deep := Nat.pos_of_ne_zero flat
        have notSubtype : ¬ hierarchy.arrayHierarchy.Subtype
            (.named hierarchy.m_Type) target :=
          ArrayHierarchy.not_subtype_of_shallower deep
        constructor
        · intro test
          refine ⟨fun zero => absurd zero flat, ?_, ?_⟩
          · intro _ _ dataType sameSemantics listed
            exact notSubtype (test.mp
              ⟨dataType, fun _ => sameSemantics, listed⟩)
          · intro _ same
            omega
        · intro regular
          apply iff_of_false _ notSubtype
          rintro ⟨dataType, sameSemantics, listed⟩
          exact regular.2.1 deep deeper dataType (sameSemantics deep) listed
    · have deep : 0 < target.levels := by omega
      have test : hierarchy.IsInstanceOf
          (hierarchy.InitializeFromObject (.typeObject reflected))
          (hierarchy.InitializeFromTypeSpec target) = true ↔ _ :=
        isInstanceOf_sameLevels same deep
      have notSubtype : ¬ hierarchy.arrayHierarchy.Subtype
          (.named hierarchy.m_Type) target :=
        ArrayHierarchy.not_subtype_of_shallower deep
      rw [test]
      constructor
      · intro wrong
        refine ⟨?_, ?_, ?_⟩
        · intro flat
          omega
        · intro _ less
          omega
        · intro _ _ sameSemantics listed
          exact notSubtype (wrong.mp ⟨sameSemantics, listed⟩)
      · intro regular
        apply iff_of_false _ notSubtype
        rintro ⟨sameSemantics, listed⟩
        exact regular.2.2 deep same sameSemantics listed
    · apply iff_of_true
      · apply iff_of_false
        · rw [isInstanceOf_shallower (by
            rw [m_levels_typeSpec]
            exact shallower)]
          exact Bool.false_ne_true
        · apply ArrayHierarchy.not_subtype_of_shallower
          exact Nat.lt_of_le_of_lt (Nat.zero_le _) shallower
      · refine ⟨?_, ?_, ?_⟩
        · intro flat
          omega
        · intro _ less
          omega
        · intro _ same
          omega

end Descriptors

/-- The test is right exactly for regular objects and targets. -/
theorem isInstanceOf_iff
    (hierarchy : TypeHierarchy)
    (object : ManagedObject)
    (target : ArrayType Nat) :
    (hierarchy.IsInstanceOf (hierarchy.InitializeFromObject object)
          (hierarchy.InitializeFromTypeSpec target) = true ↔
        hierarchy.arrayHierarchy.Subtype (hierarchy.typeOf object) target) ↔
      hierarchy.Regular object target := by
  cases object with
  | instance_ cls => exact flat_iff rfl
  | array element => exact array_iff
  | typeObject reflected => exact typeObject_iff

/-! ## An array of integers -/

/-- Types of the core library: `Object`, `Array` with its interfaces, `Type`,
`Int32` and `String`. -/
def corlibTypes : List TypeDefinition :=
  [{ dataType := 0, semantics := .Class, extends_ := none, interfaces := [] },
    { dataType := 0, semantics := .Class, extends_ := some 0,
      interfaces := [2, 3] },
    { dataType := 0, semantics := .Interface, extends_ := none,
      interfaces := [] },
    { dataType := 0, semantics := .Interface, extends_ := none,
      interfaces := [] },
    { dataType := 0, semantics := .Class, extends_ := some 0,
      interfaces := [] },
    { dataType := 1, semantics := .ValueType, extends_ := some 0,
      interfaces := [] },
    { dataType := 2, semantics := .Class, extends_ := some 0,
      interfaces := [] }]

/-- The types of the core library, as far as the tests need them. -/
def corlib : TypeHierarchy where
  m_target := fun cls => corlibTypes.getD cls
    { dataType := 0, semantics := .Class, extends_ := none, interfaces := [] }
  depth := fun cls => if cls = 0 then 0 else 1
  depth_extends := by
    intro cls parent extends_
    match cls, extends_ with
    | 0, none_ => cases none_
    | 1, rfl => decide
    | 2, none_ => cases none_
    | 3, none_ => cases none_
    | 4, rfl => decide
    | 5, rfl => decide
    | 6, rfl => decide
    | _ + 7, none_ => cases none_
  m_Array := 1
  m_Object := 0
  m_IList := 2
  m_ICloneable := 3
  m_Type := 4
  m_Type_ne := by decide

/-- What is above the class of all arrays. -/
theorem corlib_above_array
    {upper : Nat}
    (above : corlib.arrayHierarchy.AboveAll 1 upper) :
    upper ∈ [0, 1, 2, 3] := by
  induction above with
  | refl => decide
  | tail _ step inductionHypothesis =>
      rename_i middle next _
      match middle, step with
      | 0, Or.inl none_ => cases none_
      | 1, Or.inl rfl => decide
      | 1, Or.inr member =>
          exact List.mem_cons_of_mem 0 (List.mem_cons_of_mem 1 member)
      | 2, Or.inl none_ => cases none_
      | 3, Or.inl none_ => cases none_
      | middle + 4, _ =>
          simp at inductionHypothesis

/-- An array of integers passes for a string. -/
theorem isInstanceOf_arrayIsString :
    corlib.IsInstanceOf (corlib.InitializeFromObject (.array (.named 5)))
        (corlib.InitializeFromTypeSpec (.named 6)) = true ∧
      ¬ corlib.arrayHierarchy.Subtype
        (corlib.typeOf (.array (.named 5))) (.named 6) := by
  constructor
  · have strip : stripLevels
        (corlib.InitializeFromObject (.array (.named 5)))
        (corlib.InitializeFromTypeSpec (.named 6)) false = _ :=
      strip_deeper Nat.one_pos
    exact isInstanceOf_array strip Nat.one_pos rfl rfl
  · rw [ArrayHierarchy.subtype_deeper_iff (by decide)]
    intro above
    exact absurd (corlib_above_array above) (by decide)

end TypeHierarchy

end TypeSystem

end NanoClr
