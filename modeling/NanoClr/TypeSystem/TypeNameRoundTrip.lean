import NanoClr.TypeSystem.TypeNames
import Mathlib.Data.List.Forall2

/-!
# Type names round trip

Which types are found again by the name that is written for them.
-/

namespace NanoClr

namespace TypeSystem

/-! ## The class name -/

section Scan

variable {szPtr_LastDot : Option Nat} {szPtr : Nat} {text rest : Text}

theorem scanName_append
    (noPlus : plusSign ∉ text) :
    ∃ szPtr_LastDot', scanName szPtr_LastDot szPtr (text ++ rest) =
        scanName szPtr_LastDot' (szPtr + text.length) rest ∧
      (dotSign ∉ text → szPtr_LastDot' = szPtr_LastDot) := by
  induction text generalizing szPtr_LastDot szPtr with
  | nil => exact ⟨szPtr_LastDot, rfl, fun _ => rfl⟩
  | cons c text inductionHypothesis =>
      rw [List.mem_cons, not_or] at noPlus
      rw [List.cons_append, scanName, if_neg (Ne.symm noPlus.1),
        List.length_cons, Nat.add_comm text.length 1, ← Nat.add_assoc]
      split
      case isTrue isDot =>
        obtain ⟨last, scanned, -⟩ := inductionHypothesis noPlus.2
        exact ⟨last, scanned, fun noDot =>
          absurd (isDot ▸ List.mem_cons_self) noDot⟩
      case isFalse =>
        obtain ⟨last, scanned, same⟩ := inductionHypothesis noPlus.2
        exact ⟨last, scanned, fun noDot =>
          same fun isDot => noDot (List.mem_cons_of_mem c isDot)⟩

/-- What stands behind the name up to the first plus sign. -/
def EndsName (rest : Text) : Prop :=
  rest = [] ∨ ∃ names, rest = plusSign :: names

theorem scanName_end
    (ends : EndsName rest) :
    (scanName szPtr_LastDot szPtr rest).szPtr_LastDot = szPtr_LastDot ∧
      (scanName szPtr_LastDot szPtr rest).szPtr = szPtr := by
  rcases ends with rfl | ⟨names, rfl⟩
  · exact ⟨rfl, rfl⟩
  · exact ⟨rfl, rfl⟩

/-- A class name begins with the name of a type that is not nested. -/
theorem exists_outerName (szClass : Text) :
    ∃ text rest, szClass = text ++ rest ∧ plusSign ∉ text ∧
      EndsName rest := by
  induction szClass with
  | nil => exact ⟨[], [], rfl, by simp, .inl rfl⟩
  | cons c szClass inductionHypothesis =>
      by_cases isPlus : c = plusSign
      · exact ⟨[], c :: szClass, rfl, by simp, .inr ⟨szClass, isPlus ▸ rfl⟩⟩
      · obtain ⟨text, rest, rfl, noPlus, ends⟩ := inductionHypothesis
        refine ⟨c :: text, rest, rfl, ?_, ends⟩
        rw [List.mem_cons, not_or]
        exact ⟨Ne.symm isPlus, noPlus⟩

/-- The names between the plus signs. -/
theorem splitOn_eq
    (noPlus : plusSign ∉ text)
    (ends : EndsName rest) :
    (text ++ rest).splitOn plusSign =
      text :: (scanName none 0 (text ++ rest)).subTypes (text ++ rest) := by
  obtain ⟨last, scanned, -⟩ := @scanName_append none 0 _ rest noPlus
  rw [Nat.zero_add] at scanned
  rw [scanned]
  rcases ends with rfl | ⟨names, rfl⟩
  · rw [List.append_nil, List.splitOn_eq_singleton noPlus]
    rfl
  · have behind : (text ++ plusSign :: names).drop (text.length + 1) =
        names := by
      rw [← List.drop_drop, List.drop_left]
      rfl
    rw [List.splitOn_append_cons_self_of_not_mem noPlus]
    change _ = text :: ((text ++ plusSign :: names).drop _).splitOn plusSign
    rw [behind]

/-- The namespace stands before the last dot. -/
theorem scan_dot
    {name nameSpace : Text}
    (noPlus : plusSign ∉ nameSpace ++ dotSign :: name)
    (noDot : dotSign ∉ name)
    (ends : EndsName rest) :
    (scanName none 0 (nameSpace ++ dotSign :: name ++ rest)).rgNamespace
        (nameSpace ++ dotSign :: name ++ rest) = nameSpace ∧
      (scanName none 0 (nameSpace ++ dotSign :: name ++ rest)).rgName
        (nameSpace ++ dotSign :: name ++ rest) = name := by
  rw [List.mem_append, List.mem_cons, not_or, not_or] at noPlus
  obtain ⟨last, scanned, -⟩ :=
    @scanName_append none 0 _ (dotSign :: (name ++ rest)) noPlus.1
  rw [Nat.zero_add, scanName, if_pos rfl] at scanned
  obtain ⟨last', scanned', same⟩ :=
    @scanName_append (some nameSpace.length) (nameSpace.length + 1) _ rest
      noPlus.2.2
  rw [scanned', same noDot] at scanned
  have ended := @scanName_end (some nameSpace.length)
    (nameSpace.length + 1 + name.length) rest ends
  rw [← scanned] at ended
  rw [List.append_assoc, List.cons_append]
  constructor
  · rw [NameScan.rgNamespace, ended.1]
    exact List.take_left
  · rw [NameScan.rgName, ended.1, ended.2]
    dsimp only
    rw [← List.drop_drop, List.drop_left, Nat.add_sub_cancel_left]
    exact List.take_left

/-- Without a dot there is no namespace. -/
theorem scan_noDot
    (noPlus : plusSign ∉ text)
    (noDot : dotSign ∉ text)
    (ends : EndsName rest) :
    (scanName none 0 (text ++ rest)).rgNamespace (text ++ rest) = [] ∧
      (scanName none 0 (text ++ rest)).rgName (text ++ rest) =
        text ++ rest := by
  obtain ⟨last, scanned, same⟩ := @scanName_append none 0 _ rest noPlus
  rw [same noDot] at scanned
  have ended := @scanName_end none (0 + text.length) rest ends
  rw [← scanned] at ended
  constructor
  · rw [NameScan.rgNamespace, ended.1]
  · rw [NameScan.rgName, ended.1]

end Scan

/-! ## Counting names -/

theorem length_splitOn (text : Text) :
    (text.splitOn plusSign).length = text.count plusSign + 1 := by
  induction text with
  | nil => rfl
  | cons c text inductionHypothesis =>
      rw [List.splitOn_cons_eq_if_modifyHead]
      split
      case isTrue isPlus =>
        rw [eq_of_beq isPlus, List.count_cons_self, List.length_cons,
          inductionHypothesis]
      case isFalse notPlus =>
        rw [List.count_cons_of_ne (by simpa using notPlus),
          List.length_modifyHead, inductionHypothesis]

theorem count_intercalate
    {names : List Text}
    (some_ : names ≠ []) :
    ([plusSign].intercalate names).count plusSign + 1 =
      names.length + (names.map (List.count plusSign)).sum := by
  induction names with
  | nil => exact absurd rfl some_
  | cons name names inductionHypothesis =>
      cases names with
      | nil =>
          rw [List.intercalate_singleton]
          simp [Nat.add_comm]
      | cons next names =>
          have others := inductionHypothesis (List.cons_ne_nil _ _)
          rw [List.intercalate_cons_cons, List.count_append, List.count_append,
            List.map_cons, List.sum_cons, List.length_cons,
            List.count_singleton_self]
          omega

/-- Names that are told apart by the plus signs between them have none. -/
theorem noPlus_of_length
    {names : List Text}
    (some_ : names ≠ [])
    (length : (([plusSign].intercalate names).splitOn plusSign).length =
      names.length) :
    ∀ name ∈ names, plusSign ∉ name := by
  have counted := count_intercalate some_
  rw [length_splitOn] at length
  have none_ : (names.map (List.count plusSign)).sum = 0 := by omega
  intro name member
  have isZero := List.sum_eq_zero_iff_forall_eq_nat.mp none_ _
    (List.mem_map_of_mem member)
  exact List.count_eq_zero.mp isZero

/-! ## Enclosing types -/

namespace CLR_RT_Assembly

variable (assm : CLR_RT_Assembly)

/-- A type, the type that encloses it, and so on. -/
inductive EnclosedBy : List Nat → Prop where
  | outermost
      {i : Nat}
      {td : CLR_RECORD_TYPEDEF}
      (isType : assm.typeDefs[i]? = some td)
      (notNested : td.enclosingType = CLR_EmptyIndex) :
      EnclosedBy [i]
  | nested
      {i : Nat}
      {td : CLR_RECORD_TYPEDEF}
      {path : List Nat}
      (isType : assm.typeDefs[i]? = some td)
      (isNested : td.enclosingType ≠ CLR_EmptyIndex)
      (encloses : EnclosedBy (td.enclosingType :: path)) :
      EnclosedBy (i :: td.enclosingType :: path)

/-- The namespace that is written. -/
def writtenNameSpace (td : CLR_RECORD_TYPEDEF) : Option Text :=
  if td.nameSpace ≠ CLR_EmptyIndex then assm.getString td.nameSpace
  else some []

/-- A name behind its namespace. -/
def qualified (nameSpace name : Text) : Text :=
  if nameSpace ≠ [] then nameSpace ++ dotSign :: name else name

/-- What is written for a type behind its enclosing types. -/
def ownName (td : CLR_RECORD_TYPEDEF) : Option Text := do
  let nameSpace ← assm.writtenNameSpace td
  let name ← assm.getString td.name
  some (qualified nameSpace name)

/-- The names of some types. -/
def OwnNames (path : List Nat) (names : List Text) : Prop :=
  List.Forall₂
    (fun i name => ∃ td ∈ assm.typeDefs[i]?, assm.ownName td = some name) path
    names

end CLR_RT_Assembly

open CLR_RT_Assembly

section Building

variable {assm : CLR_RT_Assembly} {td : CLR_RECORD_TYPEDEF} {i : Nat}

theorem EnclosedBy.unique
    {path path' : List Nat}
    (encloses : assm.EnclosedBy (i :: path))
    (encloses' : assm.EnclosedBy (i :: path')) :
    path = path' := by
  generalize isPath : i :: path = whole at encloses
  induction encloses generalizing i path path' with
  | outermost isType notNested =>
      cases isPath
      cases encloses' with
      | outermost isType' notNested' => rfl
      | nested isType' isNested' encloses' =>
          cases isType.symm.trans isType'
          exact absurd notNested isNested'
  | nested isType isNested encloses inductionHypothesis =>
      cases isPath
      cases encloses' with
      | outermost isType' notNested' =>
          cases isType.symm.trans isType'
          exact absurd notNested' isNested
      | nested isType' isNested' encloses' =>
          cases isType.symm.trans isType'
          rw [inductionHypothesis encloses' rfl]

/-- A text is written whole where there is room left behind it. -/
theorem queueStringToBuffer_whole
    {buffer buffer' : NameBuffer}
    {szText : Text}
    (queued : queueStringToBuffer buffer szText = some buffer')
    (room : 0 < buffer'.iBuffer) :
    buffer'.szBuffer = buffer.szBuffer ++ szText ∧ 0 < buffer.iBuffer := by
  unfold queueStringToBuffer at queued
  split at queued
  case isTrue fits =>
    cases queued
    exact ⟨rfl, Nat.lt_of_le_of_lt (Nat.zero_le _) fits⟩
  case isFalse =>
    split at queued
    case isTrue =>
      cases queued
      exact absurd room (Nat.lt_irrefl 0)
    case isFalse => cases queued

theorem queueNameSpace_whole
    {buffer buffer' : NameBuffer}
    (queued : queueNameSpace assm td buffer = some buffer')
    (room : 0 < buffer'.iBuffer) :
    0 < buffer.iBuffer ∧ ∃ nameSpace,
      assm.writtenNameSpace td = some nameSpace ∧
        ∀ name, buffer'.szBuffer ++ name =
          buffer.szBuffer ++ qualified nameSpace name := by
  unfold queueNameSpace at queued
  unfold writtenNameSpace
  split at queued
  case isTrue hasNameSpace =>
    rw [if_pos hasNameSpace]
    obtain ⟨szNameSpace, isString, queued⟩ := Option.bind_eq_some_iff.mp queued
    split at queued
    case isTrue some_ =>
      obtain ⟨buffer'', first, second⟩ := Option.bind_eq_some_iff.mp queued
      obtain ⟨dotted, room'⟩ := queueStringToBuffer_whole second room
      obtain ⟨named, room''⟩ := queueStringToBuffer_whole first room'
      refine ⟨room'', szNameSpace, isString, fun name => ?_⟩
      rw [dotted, named, qualified, if_pos some_, List.append_assoc,
        List.append_assoc]
      rfl
    case isFalse none_ =>
      cases queued
      refine ⟨room, szNameSpace, isString, fun name => ?_⟩
      rw [qualified, if_neg none_]
  case isFalse noNameSpace =>
    cases queued
    rw [if_neg noNameSpace]
    exact ⟨room, [], rfl, fun name => rfl⟩

/-- The name of a type behind its enclosing types. -/
theorem ownName_whole
    {buffer buffer' : NameBuffer}
    (built : (queueNameSpace assm td buffer).bind (fun buffer =>
      (assm.getString td.name).bind (queueStringToBuffer buffer)) =
        some buffer')
    (room : 0 < buffer'.iBuffer) :
    0 < buffer.iBuffer ∧ ∃ name, assm.ownName td = some name ∧
      buffer'.szBuffer = buffer.szBuffer ++ name := by
  obtain ⟨spaced, queued, built⟩ := Option.bind_eq_some_iff.mp built
  obtain ⟨name, isName, named⟩ := Option.bind_eq_some_iff.mp built
  obtain ⟨whole, room'⟩ := queueStringToBuffer_whole named room
  obtain ⟨room'', nameSpace, isNameSpace, joined⟩ :=
    queueNameSpace_whole queued room'
  refine ⟨room'', qualified nameSpace name, ?_, whole.trans (joined name)⟩
  rw [ownName, isNameSpace, isName]
  rfl

theorem intercalate_concat
    {names : List Text}
    (some_ : names ≠ [])
    (name : Text) :
    [plusSign].intercalate (names ++ [name]) =
      [plusSign].intercalate names ++ plusSign :: name := by
  induction names with
  | nil => exact absurd rfl some_
  | cons first names inductionHypothesis =>
      cases names with
      | nil => simp
      | cons second names =>
          rw [List.cons_append, List.cons_append, List.intercalate_cons_cons,
            List.intercalate_cons_cons, ← List.cons_append,
            inductionHypothesis (List.cons_ne_nil _ _)]
          simp

/-- The name that is written is made of the names of the enclosing types. -/
theorem buildFullTypeName_whole
    {depth : Nat}
    {buffer buffer' : NameBuffer}
    (isType : assm.typeDefs[i]? = some td)
    (built : buildFullTypeName [plusSign] assm depth td buffer = some buffer')
    (room : 0 < buffer'.iBuffer) :
    0 < buffer.iBuffer ∧ ∃ path names, assm.EnclosedBy (i :: path) ∧
      assm.OwnNames (i :: path) names ∧
        buffer'.szBuffer =
          buffer.szBuffer ++ [plusSign].intercalate names.reverse := by
  induction depth generalizing i td buffer buffer' with
  | zero => cases built
  | succ depth inductionHypothesis =>
      rw [buildFullTypeName] at built
      split at built
      case isTrue isNested =>
        obtain ⟨enclosing, isEnclosing, built⟩ :=
          Option.bind_eq_some_iff.mp built
        obtain ⟨outer, enclosed, built⟩ := Option.bind_eq_some_iff.mp built
        obtain ⟨separated, queued, built⟩ := Option.bind_eq_some_iff.mp built
        obtain ⟨room', name, isName, named⟩ := ownName_whole built room
        obtain ⟨joined, room''⟩ := queueStringToBuffer_whole queued room'
        obtain ⟨start, path, names, encloses, areNames, whole⟩ :=
          inductionHypothesis isEnclosing enclosed room''
        refine ⟨start, td.enclosingType :: path, name :: names,
          .nested isType isNested encloses,
          .cons ⟨td, isType, isName⟩ areNames, ?_⟩
        have some_ : names.reverse ≠ [] := by
          rw [ne_eq, List.reverse_eq_nil_iff]
          rintro rfl
          cases areNames
        rw [named, joined, whole, List.reverse_cons,
          intercalate_concat some_, List.append_assoc, List.append_assoc]
        rfl
      case isFalse notNested =>
        obtain ⟨start, name, isName, named⟩ := ownName_whole built room
        refine ⟨start, [], [name], .outermost isType (not_not.mp notNested),
          .cons ⟨td, isType, isName⟩ .nil, ?_⟩
        rw [named, List.reverse_singleton, List.intercalate_singleton]

end Building

/-! ## The search in an assembly -/

section Search

variable
  {typeSystem : CLR_RT_TypeSystem}
  {appDomain : AppDomain typeSystem}
  {this : LoadedAssembly}
  {td : CLR_RECORD_TYPEDEF}
  {i : Nat}

/-- No type before one in its table could be taken for it. -/
def ComesFirst
    (assm : CLR_RT_Assembly)
    (Searched : CLR_RECORD_TYPEDEF → Prop)
    (i : Nat) : Prop :=
  ∀ earlier < i, ∀ other, assm.typeDefs[earlier]? = some other →
    ¬ Searched other

theorem findIdx?_iff
    {assm : CLR_RT_Assembly}
    {Searched : CLR_RECORD_TYPEDEF → Prop}
    [DecidablePred Searched] :
    assm.typeDefs.findIdx? (Searched ·) = some i ↔
      ∃ td, assm.typeDefs[i]? = some td ∧ Searched td ∧
        ComesFirst assm Searched i := by
  rw [List.findIdx?_eq_some_iff_getElem]
  constructor
  · rintro ⟨below, searched, first⟩
    refine ⟨_, List.getElem?_eq_getElem below, of_decide_eq_true searched, ?_⟩
    intro earlier before other isOther isSearched
    have isElement := List.getElem?_eq_some_iff.mp isOther
    obtain ⟨below', rfl⟩ := isElement
    exact first earlier before (decide_eq_true isSearched)
  · rintro ⟨td, isType, searched, first⟩
    obtain ⟨below, rfl⟩ := List.getElem?_eq_some_iff.mp isType
    refine ⟨below, decide_eq_true searched, fun earlier before isSearched => ?_⟩
    exact first earlier before _ (List.getElem?_eq_getElem _)
      (of_decide_eq_true isSearched)

theorem typeIndex_toNat
    (member : this ∈ appDomain.m_appDomainAssemblies)
    (isType : this.assm.typeDefs[i]? = some td) :
    (this.assm.typeIndex i).m_data.toNat =
      this.assm.m_idx.toNat * 2 ^ 16 + i := by
  have below := (List.getElem?_eq_some_iff.mp isType).1
  have table := appDomain.table this member
  have fits : i < 2 ^ 16 := by
    have few := Nat.lt_of_lt_of_le below table
    rw [CLR_EmptyIndex] at few
    omega
  have same : (UInt32.ofNat i).toNat = i :=
    UInt32.toNat_ofNat_of_lt' (Nat.lt_of_lt_of_le fits (by decide))
  rw [CLR_RT_Assembly.typeIndex,
    toNat_setIndex (appDomain.slot this member) (same.symm ▸ fits), same]

theorem typeIndex_parts
    (member : this ∈ appDomain.m_appDomainAssemblies)
    (isType : this.assm.typeDefs[i]? = some td) :
    (this.assm.typeIndex i).Assembly = this.assm.m_idx.toNat ∧
      (this.assm.typeIndex i).Type = i := by
  have number := typeIndex_toNat member isType
  have below := (List.getElem?_eq_some_iff.mp isType).1
  have table := appDomain.table this member
  rw [CLR_EmptyIndex] at table
  rw [CLR_RT_TypeDef_Index.Assembly, CLR_RT_TypeDef_Index.Type, highHalf_eq,
    lowHalf_eq, number]
  omega

theorem initializeFromIndex_typeIndex
    (member : this ∈ appDomain.m_appDomainAssemblies)
    (isType : this.assm.typeDefs[i]? = some td) :
    CLR_RT_TypeDef_Instance.initializeFromIndex typeSystem
        (this.assm.typeIndex i) =
      some (some ⟨this.assm.typeIndex i, this.assm, td⟩) := by
  obtain ⟨isAssembly, isNumber⟩ := typeIndex_parts member isType
  have loaded := appDomain.loaded this member
  have someIndex : (this.assm.typeIndex i).m_data ≠ 0 := by
    intro zero
    have number := typeIndex_toNat member isType
    rw [zero] at number
    have none_ : this.assm.m_idx.toNat = 0 := by
      change 0 = _ at number
      omega
    rw [none_] at loaded
    cases loaded
  rw [CLR_RT_TypeDef_Instance.initializeFromIndex, if_neg someIndex,
    isAssembly, loaded, isNumber]
  change (this.assm.typeDefs[i]?).bind _ = _
  rw [isType]
  rfl

/-- The search for nested types, the innermost name first. -/
def nestedIn (assm : CLR_RT_Assembly) (outer : Nat) :
    List Text → Option Nat
  | [] => some outer
  | name :: names =>
      (nestedIn assm outer names).bind fun scope =>
        assm.typeDefs.findIdx? (assm.IsNested name scope ·)

theorem nestedIn_concat
    {assm : CLR_RT_Assembly}
    {outer : Nat}
    {names : List Text}
    {name : Text} :
    nestedIn assm outer (names ++ [name]) =
      (assm.typeDefs.findIdx? (assm.IsNested name outer ·)).bind fun outer =>
        nestedIn assm outer names := by
  induction names with
  | nil =>
      rw [List.nil_append, nestedIn]
      cases found : assm.typeDefs.findIdx? (assm.IsNested name outer ·) with
      | none => exact found
      | some inner => exact found
  | cons first names inductionHypothesis =>
      rw [List.cons_append, nestedIn, inductionHypothesis, Option.bind_assoc]
      rfl

/-- The nested types are searched for in the assembly of the outermost. -/
theorem findSubTypes_eq
    {outer : Nat}
    {names : List Text}
    (member : this ∈ appDomain.m_appDomainAssemblies)
    (isType : this.assm.typeDefs[outer]? = some td) :
    findSubTypes typeSystem names (this.assm.typeIndex outer) =
      (nestedIn this.assm outer names.reverse).map this.assm.typeIndex := by
  induction names generalizing outer td with
  | nil => rfl
  | cons name names inductionHypothesis =>
      rw [List.reverse_cons, nestedIn_concat, findSubTypes,
        initializeFromIndex_typeIndex member isType]
      dsimp only
      rw [CLR_RT_Assembly.findNestedTypeDef,
        (typeIndex_parts member isType).2]
      cases found : this.assm.typeDefs.findIdx?
        (this.assm.IsNested name outer ·) with
      | none => rfl
      | some inner =>
          obtain ⟨td', isType', -⟩ := findIdx?_iff.mp found
          exact inductionHypothesis isType'

/-- A nested type is the first of its name in the enclosing type. -/
def FoundInScope (assm : CLR_RT_Assembly) (i : Nat) (name : Text) : Prop :=
  ∃ td, assm.typeDefs[i]? = some td ∧ assm.getString td.name = some name ∧
    ComesFirst assm (assm.IsNested name td.enclosingType) i

/-- What is found by nested names is enclosed as they say. -/
theorem enclosedBy_of_nestedIn
    {outer : Nat}
    {names : List Text}
    (table : this.assm.typeDefs.length ≤ CLR_EmptyIndex)
    (encloses : this.assm.EnclosedBy [outer])
    (found : nestedIn this.assm outer names = some i) :
    ∃ inner path, i :: path = inner ++ [outer] ∧
      this.assm.EnclosedBy (i :: path) ∧
      List.Forall₂ (FoundInScope this.assm) inner names := by
  induction names generalizing i with
  | nil =>
      cases found
      exact ⟨[], [], rfl, encloses, .nil⟩
  | cons name names inductionHypothesis =>
      obtain ⟨scope, isScope, found⟩ := Option.bind_eq_some_iff.mp found
      obtain ⟨td, isType, ⟨isNested, isName⟩, first⟩ := findIdx?_iff.mp found
      obtain ⟨inner, path, whole, encloses', areFound⟩ :=
        inductionHypothesis isScope
      have someScope : td.enclosingType ≠ CLR_EmptyIndex := by
        have below : scope < this.assm.typeDefs.length := by
          cases encloses' with
          | outermost isType' => exact (List.getElem?_eq_some_iff.mp isType').1
          | nested isType' => exact (List.getElem?_eq_some_iff.mp isType').1
        rw [isNested]
        exact Nat.ne_of_lt (Nat.lt_of_lt_of_le below table)
      subst isNested
      exact ⟨i :: inner, td.enclosingType :: path, by rw [whole]; rfl,
        .nested isType someScope encloses',
        .cons ⟨td, isType, isName, first⟩ areFound⟩

/-- What is enclosed as names say is found by them. -/
theorem nestedIn_of_enclosedBy
    {outer : Nat}
    {inner path : List Nat}
    {names : List Text}
    (whole : i :: path = inner ++ [outer])
    (encloses : this.assm.EnclosedBy (i :: path))
    (areFound : List.Forall₂ (FoundInScope this.assm) inner names) :
    nestedIn this.assm outer names = some i := by
  induction areFound generalizing i path with
  | nil =>
      cases whole
      rfl
  | @cons _ name inner names isFound areFound inductionHypothesis =>
      obtain ⟨td, isType, isName, first⟩ := isFound
      rw [List.cons_append, List.cons.injEq] at whole
      obtain ⟨rfl, whole⟩ := whole
      cases encloses with
      | outermost isType' => exact absurd whole (by simp)
      | nested isType' isNested encloses' =>
          cases isType.symm.trans isType'
          rw [nestedIn, inductionHypothesis whole encloses']
          exact findIdx?_iff.mpr ⟨td, isType, ⟨rfl, isName⟩, first⟩

/-! ## The search in all assemblies -/

/-- No assembly before one could be taken for it because of a type that has a
name. -/
def NoneBefore
    (appDomain : AppDomain typeSystem)
    (this other : LoadedAssembly)
    (name nameSpace : Text) : Prop :=
  ∃ before after,
    appDomain.m_appDomainAssemblies = before ++ other :: after ∧
      ∀ earlier ∈ before, earlier.isSameAssembly this = true →
        ∀ td ∈ earlier.assm.typeDefs,
          ¬ earlier.assm.IsNamed name nameSpace td

/-- A type that is not nested is the first of its name and namespace. -/
def FoundByName
    (assm : CLR_RT_Assembly)
    (i : Nat)
    (name nameSpace : Text) : Prop :=
  ∃ td, assm.typeDefs[i]? = some td ∧ assm.IsNamed name nameSpace td ∧
    ComesFirst assm (assm.IsNamed name nameSpace) i

theorem findNamedTypeDef_iff
    {name nameSpace : Text}
    {res : CLR_RT_TypeDef_Index} :
    appDomain.findNamedTypeDef name nameSpace this = some res ↔
      ∃ other i, NoneBefore appDomain this other name nameSpace ∧
        other.isSameAssembly this = true ∧
        FoundByName other.assm i name nameSpace ∧
        res = other.assm.typeIndex i := by
  rw [AppDomain.findNamedTypeDef, List.findSome?_eq_some_iff]
  constructor
  · rintro ⟨before, other, after, whole, found, none_⟩
    split at found
    case isFalse => cases found
    case isTrue isSame =>
      obtain ⟨i, isFirst, rfl⟩ := Option.map_eq_some_iff.mp found
      refine ⟨other, i, ⟨before, after, whole, ?_⟩, isSame,
        findIdx?_iff.mp isFirst, rfl⟩
      intro earlier member isSame' td isType isNamed
      have nothing := none_ earlier member
      rw [if_pos isSame'] at nothing
      have noIndex := List.findIdx?_eq_none_iff.mp
        (Option.map_eq_none_iff.mp nothing) td isType
      exact of_decide_eq_false noIndex isNamed
  · rintro ⟨other, i, ⟨before, after, whole, none_⟩, isSame, isFirst, rfl⟩
    refine ⟨before, other, after, whole, ?_, ?_⟩
    · rw [if_pos isSame, CLR_RT_Assembly.findTypeDef, findIdx?_iff.mpr isFirst]
      rfl
    · intro earlier member
      split
      case isFalse => rfl
      case isTrue isSame' =>
        rw [CLR_RT_Assembly.findTypeDef, Option.map_eq_none_iff,
          List.findIdx?_eq_none_iff]
        intro td isType
        exact decide_eq_false (none_ earlier member isSame' td isType)

/-! ## Names that lead back -/

/-- A nested type is written without namespace and found by its name. -/
def LeadsToNested (assm : CLR_RT_Assembly) (i : Nat) : Prop :=
  ∃ td name, assm.typeDefs[i]? = some td ∧ plusSign ∉ name ∧
    assm.getString td.name = some name ∧
    assm.writtenNameSpace td = some [] ∧
    ComesFirst assm (assm.IsNested name td.enclosingType) i

/-- The outermost type is written with its namespace, and found by both. -/
structure LeadsToOuter
    (appDomain : AppDomain typeSystem)
    (this : LoadedAssembly)
    (i : Nat)
    (name nameSpace : Text) : Prop where
  noPlus : plusSign ∉ name ∧ plusSign ∉ nameSpace
  noDot : dotSign ∉ name
  written : ∃ td, this.assm.typeDefs[i]? = some td ∧
    this.assm.writtenNameSpace td = some nameSpace
  found : FoundByName this.assm i name nameSpace
  noneBefore : NoneBefore appDomain this this name nameSpace

/-- The name of a type leads back to it. -/
def LeadsBack
    (appDomain : AppDomain typeSystem)
    (this : LoadedAssembly)
    (path : List Nat) : Prop :=
  ∃ inner outer name nameSpace, path = inner ++ [outer] ∧
    (∀ i ∈ inner, LeadsToNested this.assm i) ∧
    LeadsToOuter appDomain this outer name nameSpace ∧
    (inner ≠ [] → nameSpace ≠ [])

theorem isSameAssembly_self : this.isSameAssembly this = true := by
  rw [LoadedAssembly.isSameAssembly]
  simp

theorem typeIndex_injective
    {other : LoadedAssembly}
    {td' : CLR_RECORD_TYPEDEF}
    {i' : Nat}
    (member : this ∈ appDomain.m_appDomainAssemblies)
    (member' : other ∈ appDomain.m_appDomainAssemblies)
    (isSame : other.isSameAssembly this = true)
    (isType : this.assm.typeDefs[i]? = some td)
    (isType' : other.assm.typeDefs[i']? = some td')
    (same : other.assm.typeIndex i' = this.assm.typeIndex i) :
    other = this ∧ i' = i := by
  obtain ⟨isAssembly, isNumber⟩ := typeIndex_parts member isType
  obtain ⟨isAssembly', isNumber'⟩ := typeIndex_parts member' isType'
  rw [same] at isAssembly' isNumber'
  refine ⟨?_, isNumber'.symm.trans isNumber⟩
  have loaded := appDomain.loaded this member
  have loaded' := appDomain.loaded other member'
  rw [← isAssembly', isAssembly] at loaded'
  have sameAssembly := Option.some.inj (loaded'.symm.trans loaded)
  rw [LoadedAssembly.isSameAssembly, Bool.and_eq_true, decide_eq_true_eq,
    decide_eq_true_eq] at isSame
  obtain ⟨⟨headerCRC, assemblyCRC⟩, assm⟩ := other
  obtain ⟨⟨headerCRC', assemblyCRC'⟩, assm'⟩ := this
  cases sameAssembly
  cases isSame.1
  cases isSame.2
  rfl

/-! ## There and back -/

theorem split_path
    {path : List Nat}
    {names : List Text}
    (encloses : this.assm.EnclosedBy (i :: path))
    (areNames : this.assm.OwnNames (i :: path) names) :
    ∃ inner outer innerNames outerName, i :: path = inner ++ [outer] ∧
      names = innerNames ++ [outerName] ∧ this.assm.EnclosedBy [outer] ∧
      this.assm.OwnNames inner innerNames ∧
      ∃ td ∈ this.assm.typeDefs[outer]?,
        this.assm.ownName td = some outerName := by
  generalize isPath : i :: path = whole at encloses areNames
  induction encloses generalizing i path names with
  | @outermost outer td isType notNested =>
      cases areNames with
      | cons isName areNames =>
          cases areNames
          exact ⟨[], outer, [], _, rfl, rfl, .outermost isType notNested,
            .nil, isName⟩
  | @nested inner td path isType isNested encloses inductionHypothesis =>
      cases areNames with
      | cons isName areNames =>
          obtain ⟨inner', outer, innerNames, outerName, whole, split, isOuter,
            areInner, isOuterName⟩ := inductionHypothesis rfl areNames
          exact ⟨inner :: inner', outer, _ :: innerNames, outerName,
            by rw [whole]; rfl, by rw [split]; rfl, isOuter,
            .cons isName areInner, isOuterName⟩

/-- What is written behind the name of the outermost type. -/
theorem exists_intercalate
    {innerNames : List Text}
    {outerName : Text} :
    ∃ rest, [plusSign].intercalate (outerName :: innerNames) =
      outerName ++ rest ∧ EndsName rest ∧ (innerNames = [] ↔ rest = []) := by
  cases innerNames with
  | nil =>
      refine ⟨[], ?_, .inl rfl, by simp⟩
      rw [List.intercalate_singleton, List.append_nil]
  | cons name names =>
      refine ⟨plusSign :: [plusSign].intercalate (name :: names), ?_,
        .inr ⟨_, rfl⟩, by simp⟩
      rw [List.intercalate_cons_cons, List.append_assoc]
      rfl

theorem qualified_noPlus
    {name nameSpace : Text}
    (noPlus : plusSign ∉ name ∧ plusSign ∉ nameSpace) :
    plusSign ∉ qualified nameSpace name := by
  rw [qualified]
  split
  · rw [List.mem_append, List.mem_cons, not_or, not_or]
    exact ⟨noPlus.2, by decide, noPlus.1⟩
  · exact noPlus.1

theorem ownName_of_parts
    {name nameSpace : Text}
    (isNameSpace : this.assm.writtenNameSpace td = some nameSpace)
    (isName : this.assm.getString td.name = some name) :
    this.assm.ownName td = some (qualified nameSpace name) := by
  rw [ownName, isNameSpace, isName]
  rfl

/-- The names of nested types that lead to them. -/
theorem innerNames_of_leadsTo
    {inner : List Nat}
    {innerNames : List Text}
    (areNames : this.assm.OwnNames inner innerNames)
    (lead : ∀ i ∈ inner, LeadsToNested this.assm i) :
    (∀ name ∈ innerNames, plusSign ∉ name) ∧
      List.Forall₂ (FoundInScope this.assm) inner innerNames := by
  induction areNames with
  | nil => exact ⟨by simp, .nil⟩
  | cons isOwn areNames inductionHypothesis =>
      rw [List.forall_mem_cons] at lead
      obtain ⟨td, name, isType, noPlus, isName, isNameSpace, first⟩ := lead.1
      obtain ⟨td', isType', isOwn⟩ := isOwn
      cases isType.symm.trans isType'
      cases (ownName_of_parts isNameSpace isName).symm.trans isOwn
      obtain ⟨nonePlus, areFound⟩ := inductionHypothesis lead.2
      exact ⟨List.forall_mem_cons.mpr ⟨noPlus, nonePlus⟩,
        .cons ⟨td, isType, isName, first⟩ areFound⟩

/-- The class name that leads back is read as it was written. -/
theorem scan_qualified
    {name nameSpace rest : Text}
    (noPlus : plusSign ∉ name ∧ plusSign ∉ nameSpace)
    (noDot : dotSign ∉ name)
    (ends : EndsName rest)
    (global : rest ≠ [] → nameSpace ≠ []) :
    (scanName none 0 (qualified nameSpace name ++ rest)).rgNamespace
        (qualified nameSpace name ++ rest) = nameSpace ∧
      (scanName none 0 (qualified nameSpace name ++ rest)).rgName
        (qualified nameSpace name ++ rest) = name := by
  have clean := qualified_noPlus noPlus
  by_cases some_ : nameSpace ≠ []
  · rw [qualified, if_pos some_] at clean ⊢
    exact scan_dot clean noDot ends
  · have noRest : rest = [] := not_not.mp (mt global some_)
    rw [qualified, if_neg some_] at clean ⊢
    rw [not_not.mp some_]
    subst noRest
    have scanned := scan_noDot clean noDot ends
    rw [List.append_nil] at scanned ⊢
    exact scanned

theorem findTypeDef_of_leadsBack
    {path : List Nat}
    {names : List Text}
    (member : this ∈ appDomain.m_appDomainAssemblies)
    (encloses : this.assm.EnclosedBy (i :: path))
    (areNames : this.assm.OwnNames (i :: path) names)
    (short : ([plusSign].intercalate names.reverse).length <
      maxTypeNameLength)
    (leads : LeadsBack appDomain this (i :: path)) :
    appDomain.findTypeDef ([plusSign].intercalate names.reverse) this =
      some (this.assm.typeIndex i) := by
  obtain ⟨inner, outer, innerNames, outerName, whole, rfl, isOuter, areInner,
    tdOuter, isTypeOuter, isOuterName⟩ := split_path encloses areNames
  obtain ⟨inner', outer', name, nameSpace, whole', leadInner, leadOuter,
    global⟩ := leads
  obtain ⟨rfl, sameOuter⟩ := List.append_inj' (whole.symm.trans whole') rfl
  cases sameOuter
  obtain ⟨nonePlus, areFound⟩ := innerNames_of_leadsTo areInner leadInner
  obtain ⟨td, isType, isNameSpace⟩ := leadOuter.written
  obtain ⟨td', isType', isNamed, first⟩ := leadOuter.found
  cases isType.symm.trans isTypeOuter
  cases isType.symm.trans isType'
  cases (ownName_of_parts isNameSpace isNamed.2.1).symm.trans isOuterName
  rw [List.reverse_append, List.reverse_singleton, List.singleton_append]
    at short ⊢
  obtain ⟨rest, written, ends, isEmpty⟩ :=
    @exists_intercalate innerNames.reverse (qualified nameSpace name)
  have clean := qualified_noPlus leadOuter.noPlus
  have split := splitOn_eq clean ends
  have allClean : ∀ part ∈ qualified nameSpace name :: innerNames.reverse,
      plusSign ∉ part := by
    rw [List.forall_mem_cons]
    exact ⟨clean, fun part inside => nonePlus part (List.mem_reverse.mp inside)⟩
  rw [← written, List.splitOn_intercalate _ allClean (List.cons_ne_nil _ _),
    List.cons.injEq] at split
  have global' : rest ≠ [] → nameSpace ≠ [] := by
    intro someRest
    apply global
    rintro rfl
    cases areInner
    exact someRest (isEmpty.mp rfl)
  obtain ⟨isSpace, isName⟩ :=
    scan_qualified leadOuter.noPlus leadOuter.noDot ends global'
  rw [← written] at isSpace isName
  have found : appDomain.findNamedTypeDef name nameSpace this =
      some (this.assm.typeIndex outer) :=
    findNamedTypeDef_iff.mpr ⟨this, outer, leadOuter.noneBefore,
      isSameAssembly_self, leadOuter.found, rfl⟩
  rw [AppDomain.findTypeDef, if_pos short]
  dsimp only
  rw [isSpace, isName, found, ← split.2]
  change findSubTypes typeSystem _ _ = _
  rw [findSubTypes_eq member isType, List.reverse_reverse,
    nestedIn_of_enclosedBy whole encloses areFound]
  rfl

theorem qualified_eq_name
    {name nameSpace : Text}
    (same : qualified nameSpace name = name) :
    nameSpace = [] := by
  by_contra some_
  rw [qualified, if_pos some_] at same
  have length := congrArg List.length same
  rw [List.length_append, List.length_cons] at length
  omega

/-- Nested types that are found by what is written for them. -/
theorem leadsTo_of_innerNames
    {inner : List Nat}
    {innerNames : List Text}
    (areNames : this.assm.OwnNames inner innerNames)
    (nonePlus : ∀ name ∈ innerNames, plusSign ∉ name)
    (areFound : List.Forall₂ (FoundInScope this.assm) inner innerNames) :
    ∀ i ∈ inner, LeadsToNested this.assm i := by
  induction areNames with
  | nil => simp
  | cons isOwn areNames inductionHypothesis =>
      cases areFound with
      | cons isFound areFound =>
          rw [List.forall_mem_cons] at nonePlus ⊢
          refine ⟨?_, inductionHypothesis nonePlus.2 areFound⟩
          obtain ⟨td, isType, isName, first⟩ := isFound
          obtain ⟨td', isType', isOwn⟩ := isOwn
          cases isType.symm.trans isType'
          refine ⟨td, _, isType, nonePlus.1, isName, ?_, first⟩
          obtain ⟨nameSpace, isNameSpace, isOwn⟩ :=
            Option.bind_eq_some_iff.mp isOwn
          rw [isName] at isOwn
          have same := Option.some.inj isOwn
          rw [isNameSpace, qualified_eq_name same]

theorem exists_lastDot
    {text : Text}
    (hasDot : dotSign ∈ text) :
    ∃ nameSpace name, text = nameSpace ++ dotSign :: name ∧
      dotSign ∉ name := by
  obtain ⟨behind, before, split, noDot⟩ :=
    List.eq_append_cons_of_mem (List.mem_reverse.mpr hasDot)
  refine ⟨before.reverse, behind.reverse, ?_, ?_⟩
  · rw [← List.reverse_reverse text, split, List.reverse_append,
      List.reverse_cons, List.append_assoc]
    rfl
  · rwa [List.mem_reverse]

/-- The namespace that is found is the one that is written. -/
theorem written_of_found
    {outerName rest written : Text}
    (clean : plusSign ∉ outerName)
    (ends : EndsName rest)
    (isNameSpace : this.assm.writtenNameSpace td = some written)
    (isOwn : this.assm.ownName td = some outerName)
    (isName : this.assm.getString td.name = some
      ((scanName none 0 (outerName ++ rest)).rgName (outerName ++ rest))) :
    (scanName none 0 (outerName ++ rest)).rgNamespace (outerName ++ rest) =
        written ∧
      plusSign ∉ (scanName none 0 (outerName ++ rest)).rgName
        (outerName ++ rest) ∧
      plusSign ∉ written ∧
      dotSign ∉ (scanName none 0 (outerName ++ rest)).rgName
        (outerName ++ rest) ∧
      (rest ≠ [] → written ≠ []) := by
  have own := (ownName_of_parts isNameSpace isName).symm.trans isOwn
  have same := Option.some.inj own
  by_cases hasDot : dotSign ∈ outerName
  · obtain ⟨nameSpace, name, rfl, noDot⟩ := exists_lastDot hasDot
    obtain ⟨isSpace, isLast⟩ := scan_dot clean noDot ends
    rw [isLast] at same ⊢
    rw [List.mem_append, List.mem_cons, not_or, not_or] at clean
    have some_ : written ≠ [] := by
      rintro rfl
      have length := congrArg List.length same
      rw [qualified, if_neg (by simp), List.length_append, List.length_cons]
        at length
      omega
    rw [qualified, if_pos some_] at same
    cases List.append_cancel_right same
    exact ⟨isSpace, clean.2.2, clean.1, noDot, fun _ => some_⟩
  · obtain ⟨isSpace, isWhole⟩ := scan_noDot clean hasDot ends
    rw [isWhole] at same ⊢
    have none_ : written = [] := by
      by_contra some_
      rw [qualified, if_pos some_] at same
      apply hasDot
      rw [← same]
      simp
    subst none_
    have noRest : rest = [] := by
      rw [qualified, if_neg (by simp)] at same
      exact List.append_right_eq_self.mp same
    subst noRest
    rw [List.append_nil] at isSpace ⊢
    exact ⟨isSpace, clean, by simp, hasDot, fun some_ => absurd rfl some_⟩

theorem isType_of_enclosedBy
    {assm : CLR_RT_Assembly}
    {path : List Nat}
    (encloses : assm.EnclosedBy (i :: path)) :
    ∃ td, assm.typeDefs[i]? = some td := by
  cases encloses with
  | outermost isType notNested => exact ⟨_, isType⟩
  | nested isType isNested encloses => exact ⟨_, isType⟩

theorem leadsBack_of_findTypeDef
    {path : List Nat}
    {names : List Text}
    (member : this ∈ appDomain.m_appDomainAssemblies)
    (encloses : this.assm.EnclosedBy (i :: path))
    (areNames : this.assm.OwnNames (i :: path) names)
    (found : appDomain.findTypeDef ([plusSign].intercalate names.reverse)
      this = some (this.assm.typeIndex i)) :
    LeadsBack appDomain this (i :: path) := by
  obtain ⟨inner, outer, innerNames, outerName, whole, rfl, isOuter, areInner,
    td, isType, isOwn⟩ := split_path encloses areNames
  rw [List.reverse_append, List.reverse_singleton, List.singleton_append]
    at found
  rw [AppDomain.findTypeDef] at found
  split at found
  case isFalse => cases found
  case isTrue short =>
    obtain ⟨res, isRes, nested⟩ := Option.bind_eq_some_iff.mp found
    obtain ⟨other, outer', noneBefore, isSame, foundByName, rfl⟩ :=
      findNamedTypeDef_iff.mp isRes
    have member' : other ∈ appDomain.m_appDomainAssemblies := by
      obtain ⟨before, after, list, -⟩ := noneBefore
      rw [list]
      simp
    obtain ⟨td', isType', isNamed, first⟩ := foundByName
    rw [findSubTypes_eq member' isType'] at nested
    obtain ⟨i', isNested, sameIndex⟩ := Option.map_eq_some_iff.mp nested
    obtain ⟨inner', path', whole', encloses', areFound⟩ :=
      enclosedBy_of_nestedIn (appDomain.table other member')
        (.outermost isType' isNamed.1) isNested
    obtain ⟨tdThis, isTypeThis⟩ := isType_of_enclosedBy encloses
    obtain ⟨tdOther, isTypeOther⟩ := isType_of_enclosedBy encloses'
    obtain ⟨rfl, rfl⟩ := typeIndex_injective member member' isSame isTypeThis
      isTypeOther sameIndex
    cases EnclosedBy.unique encloses encloses'
    obtain ⟨rfl, sameOuter⟩ := List.append_inj' (whole.symm.trans whole') rfl
    cases sameOuter
    cases isType.symm.trans isType'
    obtain ⟨text, rest, written, noPlus, ends⟩ :=
      exists_outerName ([plusSign].intercalate (outerName :: innerNames.reverse))
    have split := splitOn_eq noPlus ends
    rw [← written] at split
    have length := areFound.length_eq
    have nonePlus := noPlus_of_length
      (List.cons_ne_nil outerName innerNames.reverse) (by
        rw [split, List.length_cons, List.length_cons, List.length_reverse,
          ← areInner.length_eq, length, List.length_reverse])
    rw [List.splitOn_intercalate _ nonePlus (List.cons_ne_nil _ _),
      List.cons.injEq] at split
    obtain ⟨rfl, subTypes⟩ := split
    rw [List.forall_mem_cons] at nonePlus
    rw [← subTypes, List.reverse_reverse] at areFound
    obtain ⟨nameSpace, isNameSpace, -⟩ := Option.bind_eq_some_iff.mp isOwn
    rw [written] at isNamed first noneBefore
    obtain ⟨isSpace, namePlus, spacePlus, noDot, global⟩ :=
      written_of_found noPlus ends isNameSpace isOwn isNamed.2.1
    rw [isSpace] at isNamed first noneBefore
    refine ⟨inner, outer, _, nameSpace, whole,
      leadsTo_of_innerNames areInner
        (fun name inside => nonePlus.2 name (List.mem_reverse.mpr inside))
        areFound,
      ⟨⟨namePlus, spacePlus⟩, noDot, ⟨td, isType, isNameSpace⟩,
        ⟨td, isType, isNamed, first⟩, noneBefore⟩, ?_⟩
    rintro someInner
    apply global
    rintro rfl
    obtain ⟨rest, written', -, isEmpty⟩ :=
      @exists_intercalate innerNames.reverse outerName
    have noRest := List.append_cancel_left (written'.symm.trans written)
    have noNames := List.reverse_eq_nil_iff.mp (isEmpty.mpr noRest)
    rw [noNames] at areInner
    cases areInner
    exact someInner rfl

/-- A type gets a name that fits the buffers. -/
def WritesName (this : LoadedAssembly) (i : Nat) (name : Text) : Prop :=
  ∃ td iBuffer buffer, this.assm.typeDefs[i]? = some td ∧
    buildFullTypeName [plusSign] this.assm this.assm.typeDefs.length td
      ⟨[], iBuffer⟩ = some buffer ∧
    0 < buffer.iBuffer ∧ buffer.szBuffer = name ∧
    name.length < maxTypeNameLength

/-- Every type is found by its name, and no other has it. -/
structure RoundTrips
    (appDomain : AppDomain typeSystem)
    (this : LoadedAssembly) : Prop where
  finds : ∀ i name, WritesName this i name →
    appDomain.findTypeDef name this = some (this.assm.typeIndex i)
  distinct : ∀ i i' name, WritesName this i name → WritesName this i' name →
    i = i'

/-- `A` in a namespace, and `B` nested in it. -/
def nestedTypes (nameSpace : Nat) : LoadedAssembly where
  m_header := ⟨0, 0⟩
  assm := {
    m_idx := 1
    typeDefs := [⟨1, nameSpace, 0xFFFF, CLR_EmptyIndex, 0, 0, 0, 0⟩,
      ⟨2, 0, 0xFFFF, 0, 0, 0, 0, 0⟩]
    methodDefs := []
    typeSpecs := []
    signatures := []
    m_pCrossReference_TypeRef := []
    m_pCrossReference_MethodDef := []
    getString := fun i => [[], [0x41], [0x42], [0x4E]][i]? }

/-- A domain with the assembly of the nested types. -/
def nestedDomain (nameSpace : Nat) :
    AppDomain ⟨[some (nestedTypes nameSpace).assm], default⟩ where
  m_appDomainAssemblies := [nestedTypes nameSpace]
  loaded := List.forall_mem_singleton.mpr rfl
  slot := List.forall_mem_singleton.mpr (Nat.lt_of_sub_eq_succ rfl)
  table := List.forall_mem_singleton.mpr (Nat.le_of_ble_eq_true rfl)

theorem leadsBack_nestedTypes
    {i : Nat}
    {path : List Nat}
    (encloses : (nestedTypes 3).assm.EnclosedBy (i :: path)) :
    LeadsBack (nestedDomain 3) (nestedTypes 3) (i :: path) := by
  have noneBefore : NoneBefore (nestedDomain 3) (nestedTypes 3)
      (nestedTypes 3) [0x41] [0x4E] := ⟨[], [], rfl, by simp⟩
  have leadsOuter : LeadsToOuter (nestedDomain 3) (nestedTypes 3) 0 [0x41]
      [0x4E] :=
    ⟨by decide, by decide, ⟨_, rfl, rfl⟩, ⟨_, rfl, ⟨rfl, rfl, rfl⟩,
      fun earlier before => absurd before (Nat.not_lt_zero earlier)⟩,
      noneBefore⟩
  have leadsInner : LeadsToNested (nestedTypes 3).assm 1 := by
    refine ⟨_, [0x42], rfl, by decide, rfl, rfl, ?_⟩
    intro earlier before other isOther isNested
    cases Nat.lt_one_iff.mp before
    cases isOther
    exact absurd isNested.1 (by decide)
  cases encloses with
  | @outermost _ td isType notNested =>
      match i, isType with
      | 0, _ =>
          exact ⟨[], 0, _, _, rfl, by simp, leadsOuter, fun some_ =>
            absurd rfl some_⟩
      | 1, isType =>
          cases isType
          cases notNested
  | @nested _ td path isType isNested encloses =>
      match i, isType with
      | 0, isType =>
          cases isType
          exact absurd rfl isNested
      | 1, isType =>
          cases isType
          cases encloses with
          | outermost isType' notNested =>
              exact ⟨[1], 0, _, _, rfl, List.forall_mem_singleton.mpr leadsInner,
                leadsOuter, fun _ => List.cons_ne_nil _ _⟩
          | nested isType' isNested' encloses =>
              cases isType'
              exact absurd rfl isNested'

end Search

end TypeSystem

end NanoClr
