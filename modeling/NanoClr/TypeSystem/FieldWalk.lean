import NanoClr.TypeSystem.NewObject

/-!
# The walk over the fields

The loop of `NewObject` comes to every field of the class and of its bases
once, in the order in which the slots lie in the object.
-/

namespace NanoClr

namespace TypeSystem

namespace FieldHierarchy

variable (hierarchy : FieldHierarchy)

/-- One call for each field, at the slot that the field has been given. -/
def initializeEach
    (initialize_ : ObjectHeap → Nat → FieldIndex → Outcome)
    (obj : Nat) : List FieldIndex → ObjectHeap → Outcome
  | [], heap => some (.S_OK, heap)
  | field :: fields, heap =>
      Outcome.check (initialize_ heap (obj + 3 * hierarchy.m_offset field) field)
        (initializeEach initialize_ obj fields)

/-- The fields that are left when so many fields of a class are. -/
def fieldsLeft (instSub : TypeIndex) (clsFields : Nat) : List FieldIndex :=
  hierarchy.inheritedFields instSub ++ hierarchy.ownFields instSub clsFields

/-- The record that has been reached is the one behind the fields left. -/
def Follows
    (instSub : TypeIndex)
    (clsFields : Nat)
    (target : Option FieldIndex) : Prop :=
  ∀ record, target = some record → record = hierarchy.ownField instSub clsFields

variable {hierarchy} {cls : TypeIndex}

theorem fieldsLeft_all :
    hierarchy.fieldsLeft cls (hierarchy.m_target cls).iFields_Num.toNat =
      hierarchy.declaredFields cls := by
  rw [fieldsLeft, declaredFields_eq]

theorem fieldDef_eq
    {clsFields : Nat}
    {target : Option FieldIndex}
    (follows : hierarchy.Follows cls clsFields target) :
    hierarchy.fieldDef cls clsFields target =
      hierarchy.ownField cls clsFields := by
  cases target with
  | none => rfl
  | some record => exact follows record rfl

/-- A place in the walk: fields of a class are left, and those that it
inherits. -/
structure Walking
    (hierarchy : FieldHierarchy)
    (instSub : TypeIndex)
    (clsFields : Nat)
    (target : Option FieldIndex) : Prop where
  loaded : hierarchy.Loaded instSub
  fits : (hierarchy.declaredFields instSub).length < 0x10000
  own : clsFields ≤ (hierarchy.m_target instSub).iFields_Num.toNat
  follows : hierarchy.Follows instSub clsFields target

theorem Walking.parent
    {clsFields : Nat}
    {target : Option FieldIndex}
    {parent : TypeIndex}
    (walking : hierarchy.Walking cls clsFields target)
    (above : (hierarchy.m_target cls).extends_ = some parent) :
    hierarchy.Walking parent
      (hierarchy.m_target parent).iFields_Num.toNat none where
  loaded := hierarchy.extends_loaded above
  fits := by
    have fits := walking.fits
    rw [length_declaredFields, inheritedFields_some above] at fits
    omega
  own := Nat.le_refl _
  follows := by
    intro record reached
    cases reached

/-- Going up to a class with fields leaves the same fields. -/
theorem switchToParents_some
    {instSub : TypeIndex}
    {clsFields : Nat}
    {target : Option FieldIndex}
    (walking : hierarchy.Walking instSub clsFields target)
    {result : TypeIndex × Nat × Option FieldIndex}
    (found : hierarchy.switchToParents instSub clsFields target =
      some result) :
    hierarchy.Walking result.1 result.2.1 result.2.2 ∧ result.2.1 ≠ 0 ∧
      hierarchy.fieldsLeft result.1 result.2.1 =
        hierarchy.fieldsLeft instSub clsFields := by
  induction instSub, clsFields, target using
      switchToParents.induct hierarchy with
  | case1 instSub target parent above inductionHypothesis =>
      rw [switchToParents, if_pos rfl] at found
      split at found
      case h_1 parent' above' =>
        rw [above] at above'
        cases above'
        have ⟨goesOn, some_, same⟩ :=
          inductionHypothesis (walking.parent above) found
        refine ⟨goesOn, some_, ?_⟩
        rw [same, fieldsLeft_all, fieldsLeft, inheritedFields_some above]
        exact (List.append_nil _).symm
      case h_2 => cases found
  | case2 instSub target top =>
      rw [switchToParents, if_pos rfl] at found
      split at found
      case h_1 parent above =>
        rw [above] at top
        cases top
      case h_2 => cases found
  | case3 instSub clsFields target left =>
      rw [switchToParents, if_neg left] at found
      cases found
      exact ⟨walking, left, rfl⟩

theorem switchToParents_none
    {instSub : TypeIndex}
    {clsFields : Nat}
    {target : Option FieldIndex}
    (found : hierarchy.switchToParents instSub clsFields target = none) :
    hierarchy.fieldsLeft instSub clsFields = [] := by
  induction instSub, clsFields, target using
      switchToParents.induct hierarchy with
  | case1 instSub target parent above inductionHypothesis =>
      rw [switchToParents, if_pos rfl] at found
      split at found
      case h_1 parent' above' =>
        rw [above] at above'
        cases above'
        have left := inductionHypothesis found
        rw [fieldsLeft_all] at left
        rw [fieldsLeft, inheritedFields_some above, left]
        rfl
      case h_2 top =>
        rw [above] at top
        cases top
  | case2 instSub target top =>
      rw [fieldsLeft, inheritedFields_none top]
      rfl
  | case3 instSub clsFields target left =>
      rw [switchToParents, if_neg left] at found
      cases found

theorem fieldsLeft_succ (index : Nat) :
    hierarchy.fieldsLeft cls (index + 1) =
      hierarchy.fieldsLeft cls index ++ [hierarchy.ownField cls index] := by
  rw [fieldsLeft, fieldsLeft, ownFields_succ, List.append_assoc]

theorem length_fieldsLeft (clsFields : Nat) :
    (hierarchy.fieldsLeft cls clsFields).length =
      (hierarchy.inheritedFields cls).length + clsFields := by
  rw [fieldsLeft, List.length_append, length_ownFields]

/-- The walk over the fields left, from the last one to the first. -/
theorem initializeFields_left
    {initialize_ : ObjectHeap → Nat → FieldIndex → Outcome}
    {obj slots : Nat}
    {instSub : TypeIndex}
    {clsFields : Nat}
    {target : Option FieldIndex}
    (walking : hierarchy.Walking instSub clsFields target)
    (left : (hierarchy.fieldsLeft instSub clsFields).length = slots) :
    hierarchy.initializeFields initialize_ obj slots instSub clsFields
        target =
      hierarchy.initializeEach initialize_ obj
        (hierarchy.fieldsLeft instSub clsFields).reverse := by
  induction slots generalizing instSub clsFields target with
  | zero =>
      rw [List.eq_nil_of_length_eq_zero left]
      rfl
  | succ slot inductionHypothesis =>
      funext heap
      rw [initializeFields]
      split
      case h_1 found =>
        rw [switchToParents_none found] at left
        cases left
      case h_2 instSub' clsFields' target' found =>
        have ⟨goesOn, some_, same⟩ := switchToParents_some walking found
        obtain ⟨index, rfl⟩ := Nat.exists_eq_succ_of_ne_zero some_
        have before : hierarchy.Walking instSub' index
            (some (hierarchy.ownField instSub' index)) :=
          { goesOn with
            own := by
              have := goesOn.own
              simp only at this
              omega
            follows := by
              intro record reached
              cases reached
              rfl }
        have offset : hierarchy.m_offset (hierarchy.ownField instSub' index) =
            slot + 1 := by
          rw [m_offset_eq goesOn.loaded goesOn.fits goesOn.own, ← left, ← same,
            length_fieldsLeft]
          simp only
          omega
        have rest := @inductionHypothesis instSub' index _ before (by
          rw [← same, fieldsLeft_succ, List.length_append] at left
          exact Nat.succ.inj left)
        rw [← same]
        simp only [fieldDef_eq goesOn.follows]
        rw [Nat.succ_eq_add_one, fieldsLeft_succ, List.reverse_append,
          List.reverse_singleton, List.singleton_append, initializeEach,
          offset, ← rest]
        rfl

/-- The loop calls for each field of the class and of its bases once. -/
theorem initializeFields_eq
    {initialize_ : ObjectHeap → Nat → FieldIndex → Outcome}
    {obj : Nat}
    (loaded : hierarchy.Loaded cls)
    (fits : (hierarchy.declaredFields cls).length < 0x10000) :
    hierarchy.initializeFields initialize_ obj (hierarchy.m_totalFields cls)
        cls (hierarchy.m_target cls).iFields_Num.toNat none =
      hierarchy.initializeEach initialize_ obj
        (hierarchy.declaredFields cls).reverse := by
  rw [initializeFields_left, fieldsLeft_all]
  · exact
      { loaded := loaded
        fits := fits
        own := Nat.le_refl _
        follows := by
          intro record reached
          cases reached }
  · rw [fieldsLeft_all, m_totalFields_eq loaded, Nat.mod_eq_of_lt fits]

end FieldHierarchy

end TypeSystem

end NanoClr
