import NanoClr.TypeSystem.TypeNameRoundTrip

/-!
# Names of explicit implementations

A class implements a method of an interface explicitly by a method that is named
after both. The search writes this name to a buffer of fixed size.
-/

set_option linter.style.nameCheck false

namespace NanoClr

namespace TypeSystem

/-- The full name of a type with dots between nested types. -/
def fullTypeName (assm : CLR_RT_Assembly) :
    Nat → CLR_RECORD_TYPEDEF → Option Text
  | 0, _ => none
  | depth + 1, td => do
      let outer ←
        if td.enclosingType ≠ CLR_EmptyIndex then do
          let enclosing ← assm.typeDefs[td.enclosingType]?
          let name ← fullTypeName assm depth enclosing
          some (name ++ dot)
        else some []
      let name ← assm.ownName td
      some (outer ++ name)

/-- The name under which a class implements a method of a type explicitly;
inside, none where the type is no interface. -/
def explicitName (inst : CLR_RT_TypeDef_Instance) (calleeName : Text) :
    Option (Option Text) :=
  if inst.m_target.flags &&& TD_Semantics_Mask = TD_Semantics_Interface then do
    let name ← fullTypeName inst.m_assm inst.m_assm.typeDefs.length inst.m_target
    some (some (name ++ dot ++ calleeName))
  else
    some none

/-- The buffer behind a text: the last character of one that just fits is
lost. -/
def writtenText (text : Text) : Option NameBuffer :=
  if text.length ≤ maxNameLength then
    some {
      szBuffer := text.take (maxNameLength - 1)
      iBuffer := maxNameLength - text.length
    }
  else
    none

section Writing

variable {assm : CLR_RT_Assembly} {td : CLR_RECORD_TYPEDEF} {text : Text}

theorem writtenText_none
    (full : writtenText text = none)
    (szText : Text) : writtenText (text ++ szText) = none := by
  have long : ¬ text.length ≤ maxNameLength := by
    intro fits
    rw [writtenText, if_pos fits] at full
    cases full
  rw [writtenText, if_neg]
  rw [List.length_append]
  omega

theorem of_writtenText
    {buffer : NameBuffer}
    (written : writtenText text = some buffer) :
    text.length ≤ maxNameLength ∧
      buffer.szBuffer = text.take (maxNameLength - 1) ∧
      buffer.iBuffer = maxNameLength - text.length := by
  rw [writtenText] at written
  split at written
  case isTrue fits =>
    cases written
    exact ⟨fits, rfl, rfl⟩
  case isFalse => cases written

/-- Texts are written one behind the other. -/
theorem writtenText_queue (text szText : Text) :
    (writtenText text).bind (queueStringToBuffer · szText) =
      writtenText (text ++ szText) := by
  cases written : writtenText text with
  | none => rw [writtenText_none written, Option.bind_none]
  | some buffer =>
      obtain ⟨fits, isText, isRest⟩ := of_writtenText written
      have size : maxNameLength = 511 := rfl
      rw [Option.bind_some, queueStringToBuffer, writtenText, isText, isRest,
        List.length_append, List.take_append]
      by_cases shorter : szText.length < maxNameLength - text.length
      · rw [if_pos shorter, if_pos (by omega), Nat.sub_sub]
        rw [@List.take_of_length_le _ (maxNameLength - 1 - text.length) szText
          (by omega)]
      · rw [if_neg shorter]
        by_cases fills : szText.length = maxNameLength - text.length
        · rw [if_pos fills, if_pos (by omega), Nat.sub_right_comm,
            ← Nat.sub_sub, ← fills, Nat.sub_self]
        · rw [if_neg fills, if_neg (by omega)]

theorem queueNameSpace_written (text : Text) :
    (writtenText text).bind (queueNameSpace assm td) =
      (assm.writtenNameSpace td).bind fun nameSpace =>
        writtenText (text ++ if nameSpace ≠ [] then nameSpace ++ dot else []) := by
  cases written : writtenText text with
  | none =>
      simp only [writtenText_none written, Option.bind_none]
      cases assm.writtenNameSpace td with
      | none => rfl
      | some nameSpace => rfl
  | some buffer =>
      rw [Option.bind_some, queueNameSpace,
        CLR_RT_Assembly.writtenNameSpace]
      split
      case isFalse => simp [written]
      case isTrue =>
        cases assm.getString td.nameSpace with
        | none => rfl
        | some szNameSpace =>
            simp only [Option.bind_eq_bind, Option.bind_some]
            split
            case isFalse => simp [written]
            case isTrue =>
              rw [← List.append_assoc, ← writtenText_queue,
                ← writtenText_queue, written, Option.bind_some]

theorem ownName_written (text : Text) :
    ((writtenText text).bind (queueNameSpace assm td)).bind (fun buffer =>
        (assm.getString td.name).bind (queueStringToBuffer buffer)) =
      (assm.ownName td).bind fun name => writtenText (text ++ name) := by
  rw [queueNameSpace_written, CLR_RT_Assembly.ownName]
  cases assm.writtenNameSpace td with
  | none => rfl
  | some nameSpace =>
      cases assm.getString td.name with
      | none =>
          simp only [Option.bind_some, Option.bind_eq_bind, Option.bind_none]
          cases writtenText _ with
          | none => rfl
          | some buffer => rfl
      | some name =>
          simp only [Option.bind_some, Option.bind_eq_bind]
          rw [writtenText_queue, List.append_assoc]
          congr 2
          rw [CLR_RT_Assembly.qualified]
          split
          case isTrue => rw [List.append_assoc]; rfl
          case isFalse => rfl

theorem apply_ite_bind
    {α β : Type}
    (p : Prop)
    [Decidable p]
    (x y : Option α)
    (f : α → Option β) :
    (if p then x else y).bind f = if p then x.bind f else y.bind f :=
  apply_ite (Option.bind · f) p x y

/-- `BuildTypeName` writes the enclosing type, and then the own name. -/
theorem buildTypeName_succ (depth : Nat) (buffer : NameBuffer) :
    buildTypeName assm (depth + 1) td buffer =
      (if td.enclosingType ≠ CLR_EmptyIndex then
        assm.typeDefs[td.enclosingType]?.bind fun enclosing =>
          (buildTypeName assm depth enclosing buffer).bind
            (queueStringToBuffer · dot)
      else some buffer).bind fun buffer =>
        (queueNameSpace assm td buffer).bind fun buffer =>
          (assm.getString td.name).bind (queueStringToBuffer buffer) := by
  rw [buildTypeName]
  simp only [queueNameSpace]
  by_cases nested : td.enclosingType ≠ CLR_EmptyIndex
  · by_cases hasNameSpace : td.nameSpace ≠ CLR_EmptyIndex
    · simp only [if_pos nested, if_pos hasNameSpace, Option.bind_eq_bind,
        Option.bind_assoc, apply_ite_bind, Option.bind_some]
    · simp only [if_pos nested, if_neg hasNameSpace, Option.bind_eq_bind,
        Option.bind_assoc, Option.bind_some]
  · by_cases hasNameSpace : td.nameSpace ≠ CLR_EmptyIndex
    · simp only [if_neg nested, if_pos hasNameSpace, Option.bind_eq_bind,
        Option.bind_assoc, apply_ite_bind, Option.bind_some]
    · simp only [if_neg nested, if_neg hasNameSpace, Option.bind_eq_bind,
        Option.bind_some]

/-- `BuildTypeName` writes the full name. -/
theorem buildTypeName_written (depth : Nat) (text : Text) :
    (writtenText text).bind (buildTypeName assm depth td) =
      (fullTypeName assm depth td).bind fun name =>
        writtenText (text ++ name) := by
  induction depth generalizing td text with
  | zero =>
      rw [fullTypeName, Option.bind_none]
      cases writtenText text with
      | none => rfl
      | some buffer => rfl
  | succ depth inductionHypothesis =>
      rw [fullTypeName, funext (buildTypeName_succ depth),
        ← Option.bind_assoc]
      by_cases nested : td.enclosingType ≠ CLR_EmptyIndex
      · simp only [if_pos nested]
        cases assm.typeDefs[td.enclosingType]? with
        | none =>
            cases writtenText text with
            | none => rfl
            | some buffer => rfl
        | some enclosing =>
            simp only [Option.bind_some, Option.bind_eq_bind]
            have outer : (writtenText text).bind (fun buffer =>
                (buildTypeName assm depth enclosing buffer).bind
                  (queueStringToBuffer · dot)) =
                (fullTypeName assm depth enclosing).bind fun name =>
                  writtenText (text ++ name ++ dot) := by
              rw [← Option.bind_assoc, inductionHypothesis, Option.bind_assoc]
              simp only [writtenText_queue]
            rw [outer]
            cases fullTypeName assm depth enclosing with
            | none => rfl
            | some name =>
                rw [Option.bind_some, ← Option.bind_assoc, ownName_written]
                cases assm.ownName td with
                | none => rfl
                | some own => simp
      · simp only [if_neg nested, Option.bind_fun_some]
        rw [← Option.bind_assoc, ownName_written]
        cases assm.ownName td with
        | none => rfl
        | some own => simp

/-- The name that is looked for is the explicit name, without its last
character where it just fits. -/
theorem interfaceMethodName_eq
    {inst : CLR_RT_TypeDef_Instance}
    {calleeName name : Text}
    (isInterface : inst.m_target.flags &&& TD_Semantics_Mask =
      TD_Semantics_Interface)
    (isName : explicitName inst calleeName = some (some name)) :
    interfaceMethodName inst calleeName =
      if name.length ≤ maxNameLength then
        some (name.take (maxNameLength - 1))
      else none := by
  rw [explicitName, if_pos isInterface] at isName
  obtain ⟨full, isFull, isName⟩ := Option.bind_eq_some_iff.mp isName
  cases isName
  have empty : writtenText [] =
      some { szBuffer := [], iBuffer := maxNameLength } := rfl
  have built : buildTypeName inst.m_assm inst.m_assm.typeDefs.length
      inst.m_target { szBuffer := [], iBuffer := maxNameLength } =
        writtenText full := by
    have whole := @buildTypeName_written inst.m_assm inst.m_target
      inst.m_assm.typeDefs.length []
    rw [isFull, empty] at whole
    exact whole
  rw [interfaceMethodName, built]
  simp only [Option.bind_eq_bind]
  rw [← Option.bind_assoc, writtenText_queue, ← Option.bind_assoc,
    writtenText_queue, writtenText]
  split
  case isTrue => rfl
  case isFalse => rfl

end Writing

end TypeSystem

end NanoClr
