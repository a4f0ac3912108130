import Mathlib.Algebra.Ring.Int.Defs
import Mathlib.Algebra.Ring.Nat
import Mathlib.Logic.Relation
import Mathlib.Tactic.Common

/-!
# Subtyping with arrays

Classes with the classes and interfaces directly above them, and arrays of any
depth over these. An array is above another if its elements are, provided that
these are references; every array is below one class.
-/

namespace NanoClr

/-- What subtyping depends on. -/
structure ArrayHierarchy (α : Type) where
  above : α → α → Prop
  isReference : α → Prop
  arrayClass : α

/-- A class, or an array over it of so many levels. -/
structure ArrayType (α : Type) where
  cls : α
  levels : Nat
deriving DecidableEq

namespace ArrayType

variable {α : Type}

/-- A class itself. -/
def named (cls : α) : ArrayType α := ⟨cls, 0⟩

/-- The arrays of a type. -/
def array (type : ArrayType α) : ArrayType α := ⟨type.cls, type.levels + 1⟩

end ArrayType

namespace ArrayHierarchy

section ArraySubtyping

variable
  {α : Type}
  {hierarchy : ArrayHierarchy α}
  {lower middle upper : ArrayType α}

/-- Arrays are references whatever they hold. -/
def IsReferenceType
    (hierarchy : ArrayHierarchy α)
    (type : ArrayType α) : Prop :=
  0 < type.levels ∨ hierarchy.isReference type.cls

/-- The reflexive transitive closure of the direct relations between classes,
of covariance, and of the class of all arrays. -/
inductive Subtype
    (hierarchy : ArrayHierarchy α) :
    ArrayType α → ArrayType α → Prop where
  | refl (type : ArrayType α) : Subtype hierarchy type type
  | trans {lower middle upper : ArrayType α} :
      Subtype hierarchy lower middle →
      Subtype hierarchy middle upper →
      Subtype hierarchy lower upper
  | above {lower upper : α} :
      hierarchy.above lower upper →
      Subtype hierarchy (.named lower) (.named upper)
  | arrayClass (element : ArrayType α) :
      Subtype hierarchy element.array (.named hierarchy.arrayClass)
  | covariant {lower upper : ArrayType α} :
      hierarchy.IsReferenceType lower →
      Subtype hierarchy lower upper →
      Subtype hierarchy lower.array upper.array

/-- A class is the same as another or above it. -/
def AboveAll (hierarchy : ArrayHierarchy α) : α → α → Prop :=
  Relation.ReflTransGen hierarchy.above

/-- Subtyping by the levels of the types. -/
def SubtypeByLevels
    (hierarchy : ArrayHierarchy α)
    (lower upper : ArrayType α) : Prop :=
  (upper.levels < lower.levels ∧
      hierarchy.AboveAll hierarchy.arrayClass upper.cls) ∨
    (lower.levels = upper.levels ∧
      (lower.cls = upper.cls ∨
        (lower.levels = 0 ∨ hierarchy.isReference lower.cls) ∧
          hierarchy.AboveAll lower.cls upper.cls))

theorem SubtypeByLevels.trans
    (below : hierarchy.SubtypeByLevels lower middle)
    (above : hierarchy.SubtypeByLevels middle upper) :
    hierarchy.SubtypeByLevels lower upper := by
  rcases below with ⟨deeper, fromArray⟩ | ⟨level, same | ⟨reference, from_⟩⟩
  · rcases above with ⟨deep, toArray⟩ | ⟨equal, same | ⟨_, onward⟩⟩
    · exact Or.inl ⟨Nat.lt_trans deep deeper, toArray⟩
    · rw [equal] at deeper
      rw [same] at fromArray
      exact Or.inl ⟨deeper, fromArray⟩
    · rw [equal] at deeper
      exact Or.inl ⟨deeper, Relation.ReflTransGen.trans fromArray onward⟩
  · rw [SubtypeByLevels, ← level, ← same] at above
    rcases above with ⟨deep, toArray⟩ | ⟨equal, rest⟩
    · exact Or.inl ⟨deep, toArray⟩
    · exact Or.inr ⟨equal, rest⟩
  · rcases above with ⟨deep, toArray⟩ | ⟨equal, same | ⟨_, onward⟩⟩
    · rw [← level] at deep
      exact Or.inl ⟨deep, toArray⟩
    · rw [same] at from_
      exact Or.inr ⟨level.trans equal, Or.inr ⟨reference, from_⟩⟩
    · exact Or.inr ⟨level.trans equal,
        Or.inr ⟨reference, Relation.ReflTransGen.trans from_ onward⟩⟩

theorem SubtypeByLevels.covariant
    (reference : hierarchy.IsReferenceType lower)
    (below : hierarchy.SubtypeByLevels lower upper) :
    hierarchy.SubtypeByLevels lower.array upper.array := by
  rcases below with ⟨deeper, fromArray⟩ | ⟨level, same | ⟨either, from_⟩⟩
  · exact Or.inl ⟨Nat.succ_lt_succ deeper, fromArray⟩
  · exact Or.inr ⟨congrArg Nat.succ level, Or.inl same⟩
  · refine Or.inr ⟨congrArg Nat.succ level, Or.inr ⟨Or.inr ?_, from_⟩⟩
    rcases either with flat | isReference
    · rw [IsReferenceType, flat] at reference
      exact reference.resolve_left (Nat.lt_irrefl 0)
    · exact isReference

theorem Subtype.named
    {lower upper : α}
    (above : hierarchy.AboveAll lower upper) :
    hierarchy.Subtype (.named lower) (.named upper) := by
  induction above with
  | refl => exact .refl _
  | tail _ step inductionHypothesis =>
      exact .trans inductionHypothesis (.above step)

/-- A deeper array is below whatever the class of all arrays is below. -/
theorem Subtype.deeper
    {lower upper : α}
    {levels upperLevels : Nat}
    (less : upperLevels < levels)
    (above : hierarchy.AboveAll hierarchy.arrayClass upper) :
    hierarchy.Subtype ⟨lower, levels⟩ ⟨upper, upperLevels⟩ := by
  induction upperLevels generalizing levels with
  | zero =>
      cases levels with
      | zero => exact absurd less (Nat.lt_irrefl 0)
      | succ levels => exact .trans (.arrayClass ⟨lower, levels⟩) (.named above)
  | succ upperLevels inductionHypothesis =>
      cases levels with
      | zero => exact absurd less (Nat.not_lt_zero _)
      | succ levels =>
          have lessElements := Nat.lt_of_succ_lt_succ less
          have reference : hierarchy.IsReferenceType ⟨lower, levels⟩ :=
            Or.inl (Nat.lt_of_le_of_lt (Nat.zero_le _) lessElements)
          exact .covariant reference (inductionHypothesis lessElements)

/-- Arrays of the same depth over references are covariant. -/
theorem Subtype.sameLevels
    {lower upper : α}
    (levels : Nat)
    (reference : levels = 0 ∨ hierarchy.isReference lower)
    (above : hierarchy.AboveAll lower upper) :
    hierarchy.Subtype ⟨lower, levels⟩ ⟨upper, levels⟩ := by
  induction levels with
  | zero => exact .named above
  | succ levels inductionHypothesis =>
      have isReference := reference.resolve_left (Nat.succ_ne_zero levels)
      have referenceType : hierarchy.IsReferenceType ⟨lower, levels⟩ :=
        Or.inr isReference
      exact .covariant referenceType (inductionHypothesis (Or.inr isReference))

/-- Subtyping depends on the levels and the classes only. -/
theorem subtype_iff :
    hierarchy.Subtype lower upper ↔ hierarchy.SubtypeByLevels lower upper := by
  constructor
  · intro subtype
    induction subtype with
    | refl type => exact Or.inr ⟨rfl, Or.inl rfl⟩
    | trans _ _ below above => exact below.trans above
    | above step => exact Or.inr ⟨rfl, Or.inr ⟨Or.inl rfl, .single step⟩⟩
    | arrayClass element => exact Or.inl ⟨Nat.succ_pos _, .refl⟩
    | covariant reference _ below => exact below.covariant reference
  · rintro (⟨deeper, above⟩ | ⟨level, same | ⟨reference, above⟩⟩)
    · exact .deeper deeper above
    · have equal : lower = upper := by
        cases lower
        cases upper
        exact congr (congrArg ArrayType.mk same) level
      rw [equal]
      exact .refl upper
    · have subtype := Subtype.sameLevels lower.levels reference above
      rw [level] at subtype
      cases lower
      cases level
      exact subtype

theorem not_subtype_of_shallower (less : lower.levels < upper.levels) :
    ¬ hierarchy.Subtype lower upper := by
  rw [subtype_iff]
  rintro (⟨deeper, _⟩ | ⟨same, _⟩)
  · omega
  · omega

theorem subtype_deeper_iff (deeper : upper.levels < lower.levels) :
    hierarchy.Subtype lower upper ↔
      hierarchy.AboveAll hierarchy.arrayClass upper.cls := by
  rw [subtype_iff]
  constructor
  · rintro (⟨_, above⟩ | ⟨same, _⟩)
    · exact above
    · omega
  · intro above
    exact Or.inl ⟨deeper, above⟩

theorem subtype_sameLevels_iff
    (same : lower.levels = upper.levels)
    (deep : 0 < lower.levels) :
    hierarchy.Subtype lower upper ↔
      lower.cls = upper.cls ∨
        hierarchy.isReference lower.cls ∧
          hierarchy.AboveAll lower.cls upper.cls := by
  rw [subtype_iff]
  constructor
  · rintro (⟨deeper, _⟩ | ⟨_, equal | ⟨either, above⟩⟩)
    · omega
    · exact Or.inl equal
    · exact Or.inr ⟨either.resolve_left (Nat.ne_of_gt deep), above⟩
  · rintro (equal | ⟨reference, above⟩)
    · exact Or.inr ⟨same, Or.inl equal⟩
    · exact Or.inr ⟨same, Or.inr ⟨Or.inr reference, above⟩⟩

theorem subtype_named_iff
    {cls : α}
    (flat : upper.levels = 0) :
    hierarchy.Subtype (.named cls) upper ↔
      hierarchy.AboveAll cls upper.cls := by
  rw [subtype_iff]
  constructor
  · rintro (⟨deeper, _⟩ | ⟨_, same | ⟨_, above⟩⟩)
    · exact absurd deeper (Nat.not_lt_zero _)
    · have equal : cls = upper.cls := same
      rw [equal]
      exact .refl
    · exact above
  · intro above
    exact Or.inr ⟨flat.symm, Or.inr ⟨Or.inl rfl, above⟩⟩

end ArraySubtyping

end ArrayHierarchy

end NanoClr
