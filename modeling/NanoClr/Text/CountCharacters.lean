import NanoClr.Text.MoveBackward

/-!
# Counting, moving and converting

`CountNumberOfCharacters` sizes the buffer of `Assign`. Its walk and those of
`ConvertFromUTF8`, which moves or converts, are compared here.
-/

namespace NanoClr

namespace Text

/-! ## Moving and converting -/

namespace FromUTF8

/-- The state that is reached at the end or at `ExitFalse`. -/
def final : Except FromUTF8 FromUTF8 → FromUTF8
  | .ok state => state
  | .error state => state

/-- Two walks that are at the same place, with room for what is left. -/
structure InStep (moving converting : FromUTF8) : Prop where
  inputUTF8 : moving.inputUTF8 = converting.inputUTF8
  iMaxChars : moving.iMaxChars = converting.iMaxChars
  iMaxBytes : moving.iMaxBytes = converting.iMaxBytes
  least : -1 ≤ moving.iMaxChars
  room : moving.iMaxChars + 2 ≤ converting.outputUTF16_size

/-- Two walks that have ended in the same way. -/
inductive EndInStep :
    Except FromUTF8 FromUTF8 → Except FromUTF8 FromUTF8 → Prop where
  | ok {moving converting : FromUTF8} :
      InStep moving converting → EndInStep (.ok moving) (.ok converting)
  | error {moving converting : FromUTF8} :
      moving.inputUTF8 = converting.inputUTF8 →
      EndInStep (.error moving) (.error converting)

variable
  {utf8 : Nat → UInt8}
  {moving converting state : FromUTF8}

theorem unitsOf_length_le_two {character : List UInt8}
    (accepted : Accepted character) :
    (unitsOf character).length ≤ 2 := by
  match character, accepted with
  | [_], _ => exact Nat.le_of_ble_eq_true rfl
  | [_, _], _ => exact Nat.le_of_ble_eq_true rfl
  | [_, _, _], _ => exact Nat.le_of_ble_eq_true rfl
  | [_, _, _, _], _ => exact Nat.le_of_ble_eq_true rfl

theorem InStep.advance
    {units : List UInt16}
    (inStep : InStep moving converting)
    (bytes : Nat)
    (inside : 0 < moving.iMaxChars)
    (few : units.length ≤ 2) :
    InStep (moving.advance true bytes units)
      (converting.advance false bytes units) where
  inputUTF8 := by
    rw [inputUTF8_advance, inputUTF8_advance, inStep.inputUTF8]
  iMaxChars := by
    rw [iMaxChars_advance, iMaxChars_advance, inStep.iMaxChars]
  iMaxBytes := by
    rw [iMaxBytes_advance, iMaxBytes_advance, inStep.iMaxBytes]
  least := by
    rw [iMaxChars_advance]
    omega
  room := by
    have room := inStep.room
    show moving.iMaxChars - units.length + 2 ≤
      converting.outputUTF16_size - units.length
    omega

/-- A pass over a character for which no bytes are left. -/
theorem take_short
    {fJustMove : Bool}
    {bytes : Nat}
    {units : List UInt16}
    (short : state.iMaxBytes < bytes) :
    state.take fJustMove bytes units = .error state := by
  unfold take
  dsimp only
  rw [if_pos short]

theorem InStep.convertCharacter
    (inStep : InStep moving converting)
    (inside : 0 < moving.iMaxChars) :
    EndInStep (moving.convertCharacter utf8 true)
      (converting.convertCharacter utf8 false) := by
  have same := inStep.inputUTF8
  have bytes := inStep.iMaxBytes
  have room := inStep.room
  rcases characterAt_cases utf8 moving.inputUTF8 with
    ⟨character, accepted, held⟩ | ⟨read, stops⟩
  · have few := unitsOf_length_le_two accepted
    rw [convertCharacter_accepted accepted held,
      convertCharacter_accepted accepted (by rw [← same]; exact held)]
    by_cases short : moving.iMaxBytes < character.length
    · rw [take_short short, take_short (by omega)]
      exact .error same
    · rw [take_eq (Or.inl rfl) (by omega), take_eq (Or.inr (by omega)) (by omega)]
      exact .ok (inStep.advance _ inside few)
  · rw [stops true moving rfl, stops false converting same.symm]
    exact .error (congrArg (· + read) same)

/-- A walk that moves and one that converts stay in step. -/
theorem InStep.convert (inStep : InStep moving converting) :
    EndInStep (moving.convert utf8 true) (converting.convert utf8 false) := by
  induction moving using FromUTF8.convert.induct utf8 true
    generalizing converting with
  | case1 moving inside exited stopped =>
      have pass : EndInStep (moving.convertCharacter utf8 true)
          (converting.convertCharacter utf8 false) :=
        inStep.convertCharacter inside.1
      have chars := inStep.iMaxChars
      have bytes := inStep.iMaxBytes
      rw [stopped] at pass
      rw [convert_exit inside stopped]
      generalize converted : converting.convertCharacter utf8 false = result
        at pass
      cases pass with
      | error same =>
          rw [convert_exit (by omega) converted]
          exact .error same
  | case2 moving inside next moved inductionHypothesis =>
      have pass : EndInStep (moving.convertCharacter utf8 true)
          (converting.convertCharacter utf8 false) :=
        inStep.convertCharacter inside.1
      have chars := inStep.iMaxChars
      have bytes := inStep.iMaxBytes
      rw [moved] at pass
      rw [convert_step inside moved]
      generalize converted : converting.convertCharacter utf8 false = result
        at pass
      cases pass with
      | ok nextInStep =>
          rw [convert_step (by omega) converted]
          exact inductionHypothesis nextInStep
  | case3 moving outside =>
      have chars := inStep.iMaxChars
      have bytes := inStep.iMaxBytes
      rw [convert_done outside, convert_done (by omega)]
      exact .ok inStep

/-! ## The buffer -/

/-- A walk has written only where its buffer is. -/
structure Bounded (state after : FromUTF8) : Prop where
  size : (after.outputUTF16 : Int) + after.outputUTF16_size =
    state.outputUTF16 + state.outputUTF16_size
  output : state.outputUTF16 ≤ after.outputUTF16
  left : 0 ≤ state.outputUTF16_size → 0 ≤ after.outputUTF16_size
  outside : ∀ place, (place < state.outputUTF16 ∨
    (state.outputUTF16 : Int) + state.outputUTF16_size ≤ place) →
      after.utf16 place = state.utf16 place

theorem Bounded.trans
    {first second third : FromUTF8}
    (before : Bounded first second)
    (after : Bounded second third) :
    Bounded first third where
  size := by
    rw [after.size, before.size]
  output := Nat.le_trans before.output after.output
  left := fun size => after.left (before.left size)
  outside := by
    intro place outside
    have start := before.output
    rw [after.outside place (by rw [before.size]; omega),
      before.outside place outside]

theorem bounded_take
    {fJustMove : Bool}
    {bytes : Nat}
    {units : List UInt16} :
    Bounded state (final (state.take fJustMove bytes units)) := by
  unfold take
  dsimp only
  split
  · exact ⟨rfl, Nat.le_refl _, id, fun _ _ => rfl⟩
  · split
    · exact ⟨rfl, Nat.le_refl _, id, fun _ _ => rfl⟩
    · split
      · exact ⟨rfl, Nat.le_refl _, id, fun _ _ => rfl⟩
      case isFalse enough =>
        refine ⟨?_, Nat.le_add_right _ _, ?_, ?_⟩
        · show ((state.outputUTF16 + units.length : Nat) : Int) +
            (state.outputUTF16_size - units.length) = _
          omega
        · intro _
          exact Int.sub_nonneg_of_le (Int.not_lt.mp enough)
        · intro place outside
          exact writeCells_outside (by omega)

theorem bounded_convertCharacter {fJustMove : Bool} :
    Bounded state (final (state.convertCharacter utf8 fJustMove)) := by
  rcases characterAt_cases utf8 state.inputUTF8 with
    ⟨character, accepted, held⟩ | ⟨read, stops⟩
  · rw [convertCharacter_accepted accepted held]
    exact bounded_take
  · rw [stops fJustMove state rfl]
    exact ⟨rfl, Nat.le_refl _, id, fun _ _ => rfl⟩

theorem bounded_convert {fJustMove : Bool} :
    Bounded state (final (state.convert utf8 fJustMove)) := by
  induction state using FromUTF8.convert.induct utf8 fJustMove with
  | case1 state inside exited stopped =>
      have pass : Bounded state (final (state.convertCharacter utf8 fJustMove)) :=
        bounded_convertCharacter
      rw [stopped] at pass
      rw [convert_exit inside stopped]
      exact pass
  | case2 state inside next passed inductionHypothesis =>
      have pass : Bounded state (final (state.convertCharacter utf8 fJustMove)) :=
        bounded_convertCharacter
      rw [passed] at pass
      rw [convert_step inside passed]
      exact pass.trans inductionHypothesis
  | case3 state outside =>
      rw [convert_done outside]
      exact ⟨rfl, Nat.le_refl _, id, fun _ _ => rfl⟩

theorem bounded_terminate {fJustMove : Bool} :
    Bounded state (final (state.terminate fJustMove)) := by
  unfold terminate
  split
  · exact ⟨rfl, Nat.le_refl _, id, fun _ _ => rfl⟩
  · split
    · exact ⟨rfl, Nat.le_refl _, id, fun _ _ => rfl⟩
    case isFalse enough =>
      refine ⟨rfl, Nat.le_refl _, id, ?_⟩
      intro place outside
      exact Function.update_of_ne (by omega) _ _

end FromUTF8

/-! ## Counting -/

/-- The bytes that begin no character in UTF-8. -/
def Restricted (ch : UInt8) : Prop := ch = 0xC0 ∨ ch = 0xC1 ∨ 0xF5 ≤ ch

/-- How many low parts follow a byte. -/
def lowPartsOf : ByteClass → Option Nat
  | .single => some 0
  | .lowPart => none
  | .two => some 1
  | .three => some 2
  | .four => some 3

/-- The bytes of one character that is counted. -/
def Counted : List UInt8 → Prop
  | [] => False
  | ch :: low =>
      ch ≠ 0 ∧ lowPartsOf (byteClass ch) = some low.length ∧
        ∀ byte ∈ low, UTF8_BAD_LOWPART byte = false

/-- A string of characters that are counted. -/
def Legal (bytes : List UInt8) : Prop :=
  ∃ characters : List (List UInt8),
    (∀ character ∈ characters, Counted character) ∧
      characters.flatten = bytes

section Counting

variable
  {utf8 : Nat → UInt8}
  {pSrc count : Nat}
  {ch : UInt8}
  {bytes low : List UInt8}

theorem two_of_lowParts
    (two : lowPartsOf (byteClass ch) = some 1)
    (free : ¬ Restricted ch) :
    byteClass ch = .two ∧ ¬ ch < 0xC2 := by
  cases kind : byteClass ch <;> rw [kind] at two <;> cases two
  refine ⟨rfl, ?_⟩
  intro overlong
  have small : ch.toNat < 0xC2 := UInt8.lt_iff_toNat_lt.mp overlong
  have large : ¬ ch.toNat < 0xC0 := by
    intro below
    rw [byteClass_toNat, if_pos below] at kind
    split at kind <;> cases kind
  apply free
  by_cases first : ch.toNat = 0xC0
  · exact Or.inl (UInt8.toNat_inj.mp first)
  · apply Or.inr
    apply Or.inl
    apply UInt8.toNat_inj.mp
    show ch.toNat = 0xC1
    omega

/-- What is counted is taken, unless a restricted byte begins it. -/
theorem accepted_of_counted
    {character : List UInt8}
    (counted : Counted character)
    (free : ∀ byte ∈ character, ¬ Restricted byte) :
    Accepted character := by
  match character, counted with
  | [ch], ⟨notZero, follow, _⟩ =>
      refine ⟨?_, notZero⟩
      cases kind : byteClass ch <;> rw [kind] at follow <;> cases follow
  | [ch, _], ⟨_, follow, _⟩ =>
      exact two_of_lowParts follow (free ch List.mem_cons_self)
  | [ch, _, _], ⟨_, follow, _⟩ =>
      show byteClass ch = .three
      cases kind : byteClass ch <;> rw [kind] at follow <;> cases follow
  | [ch, _, _, _], ⟨_, follow, _⟩ =>
      constructor
      · cases kind : byteClass ch <;> rw [kind] at follow <;> cases follow
      · intro restricted
        exact free ch List.mem_cons_self (Or.inr (Or.inr restricted))
  | ch :: _ :: _ :: _ :: _ :: _, ⟨_, follow, _⟩ =>
      cases kind : byteClass ch <;> rw [kind] at follow <;> cases follow

/-- Low parts that pass the check lie before the zero. -/
theorem checkLowParts_iff (held : Holds utf8 pSrc (bytes ++ [0])) :
    checkLowParts utf8 pSrc count = true ↔
      ∃ low rest, bytes = low ++ rest ∧ low.length = count ∧
        ∀ byte ∈ low, UTF8_BAD_LOWPART byte = false := by
  induction count generalizing pSrc bytes with
  | zero =>
      apply iff_of_true rfl
      exact ⟨[], bytes, rfl, rfl, List.forall_mem_nil _⟩
  | succ count inductionHypothesis =>
      rw [checkLowParts, Bool.and_eq_true, Bool.not_eq_true']
      cases bytes with
      | nil =>
          rw [List.nil_append, holds_cons] at held
          rw [held.1]
          apply iff_of_false
          · rintro ⟨good, _⟩
            exact absurd good (by decide)
          · rintro ⟨low, rest, same, length, _⟩
            rw [(List.nil_eq_append_iff.mp same).1] at length
            cases length
      | cons byte bytes =>
          rw [List.cons_append, holds_cons] at held
          rw [held.1, inductionHypothesis held.2]
          constructor
          · rintro ⟨good, low, rest, rfl, rfl, all⟩
            exact ⟨byte :: low, rest, rfl, rfl,
              List.forall_mem_cons.mpr ⟨good, all⟩⟩
          · rintro ⟨low, rest, same, length, all⟩
            match low, length with
            | first :: low, length =>
                rw [List.cons_append, List.cons.injEq] at same
                rw [List.forall_mem_cons, ← same.1] at all
                exact ⟨all.1, low, rest, same.2, Nat.succ.inj length, all.2⟩

/-- A legal string begins with a character. -/
theorem legal_cons (legal : Legal (ch :: bytes)) :
    ∃ low rest, Counted (ch :: low) ∧ bytes = low ++ rest ∧ Legal rest := by
  have ⟨characters, all, flatten⟩ := legal
  match characters, all, flatten with
  | (first :: low) :: characters, all, flatten =>
      rw [List.forall_mem_cons] at all
      rw [List.flatten_cons, List.cons_append, List.cons.injEq] at flatten
      rw [flatten.1] at all
      exact ⟨low, characters.flatten, all.1, flatten.2.symm, characters, all.2,
        rfl⟩
  | [] :: characters, all, _ =>
      rw [List.forall_mem_cons] at all
      exact absurd all.1 id

/-- A string is counted by its characters, unless it is illegal. -/
inductive CountResult (bytes : List UInt8) (num : Int) : Option Int → Prop where
  | illegal : ¬ Legal bytes → CountResult bytes num (some (-1))
  | counted (characters : List (List UInt8)) :
      (∀ character ∈ characters, Counted character) →
      characters.flatten = bytes →
      CountResult bytes num (some (num + (unitsOfAll characters).length))

/-- A character in front is counted too. -/
theorem CountResult.follow
    {fuel : Nat}
    {max num units : Int}
    (held : Holds utf8 pSrc (bytes ++ [0]))
    (notZero : ch ≠ 0)
    (kind : lowPartsOf (byteClass ch) = some count)
    (one : ∀ low : List UInt8, low.length = count →
      ((unitsOf (ch :: low)).length : Int) = units)
    (after : ∀ low rest, bytes = low ++ rest → low.length = count →
      CountResult rest (num + units)
        (countCharacters utf8 fuel (pSrc + count) max (num + units))) :
    CountResult (ch :: bytes) num
      (if checkLowParts utf8 pSrc count then
        countCharacters utf8 fuel (pSrc + count) max (num + units)
      else some (-1)) := by
  split
  case isTrue checked =>
    have ⟨low, rest, same, length, good⟩ := (checkLowParts_iff held).mp checked
    have first : Counted (ch :: low) :=
      ⟨notZero, by rw [kind, length], good⟩
    have result := after low rest same length
    generalize countCharacters utf8 fuel _ _ _ = value at result
    cases result with
    | illegal notLegal =>
        apply CountResult.illegal
        intro legal
        have ⟨otherLow, otherRest, other, otherSame, otherLegal⟩ :=
          legal_cons legal
        have otherLength := other.2.1
        rw [kind, ← length] at otherLength
        rw [same] at otherSame
        have equal := List.append_inj otherSame (Option.some.inj otherLength)
        rw [equal.2] at notLegal
        exact notLegal otherLegal
    | counted characters all flatten =>
        have whole : CountResult (ch :: bytes) num _ :=
          .counted ((ch :: low) :: characters)
            (List.forall_mem_cons.mpr ⟨first, all⟩)
            (by rw [List.flatten_cons, flatten, same]; rfl)
        rw [unitsOfAll, List.flatMap_cons, List.length_append, Int.natCast_add,
          one low length, ← Int.add_assoc] at whole
        exact whole
  case isFalse failed =>
    apply CountResult.illegal
    intro legal
    have ⟨low, rest, first, same, _⟩ := legal_cons legal
    have length := first.2.1
    rw [kind] at length
    exact failed ((checkLowParts_iff held).mpr
      ⟨low, rest, same, (Option.some.inj length).symm, first.2.2⟩)

/-- The walk counts every string that ends with zero. -/
theorem countCharacters_result
    {fuel : Nat}
    {max num : Int}
    (unbounded : max < 0)
    (notZero : ∀ byte ∈ bytes, byte ≠ 0)
    (held : Holds utf8 pSrc (bytes ++ [0]))
    (enough : bytes.length < fuel) :
    CountResult bytes num (countCharacters utf8 fuel pSrc max num) := by
  induction fuel generalizing pSrc bytes max num with
  | zero => omega
  | succ fuel inductionHypothesis =>
      cases bytes with
      | nil =>
          rw [List.nil_append, holds_cons] at held
          rw [countCharacters, if_pos held.1]
          have none_ : CountResult [] num
              (some (num + ((unitsOfAll []).length : Int))) :=
            .counted [] (List.forall_mem_nil _) rfl
          rw [show ((unitsOfAll []).length : Int) = 0 from rfl, Int.add_zero]
            at none_
          exact none_
      | cons ch bytes =>
          rw [List.forall_mem_cons] at notZero
          rw [List.cons_append, holds_cons] at held
          rw [List.length_cons] at enough
          have after : ∀ (count : Nat) (units : Int) (low rest : List UInt8),
              bytes = low ++ rest → low.length = count →
                CountResult rest (num + units)
                  (countCharacters utf8 fuel (pSrc + 1 + count) (max - 1)
                    (num + units)) := by
            rintro _ units low rest rfl rfl
            rw [List.append_assoc, holds_append] at held
            apply inductionHypothesis (by omega) _ held.2.2
            · rw [List.length_append] at enough
              omega
            · intro value member
              exact notZero.2 value (List.mem_append_right low member)
          rw [countCharacters]
          dsimp only
          rw [held.1, if_neg notZero.1, if_neg (by omega)]
          cases kind : byteClass ch with
          | single =>
              apply CountResult.follow held.2 notZero.1 (by rw [kind]; rfl) _
                (after 0 1)
              intro low length
              match low, length with
              | [], _ => rfl
          | lowPart =>
              apply CountResult.illegal
              intro legal
              have ⟨low, rest, counted, _⟩ := legal_cons legal
              have none_ := counted.2.1
              rw [kind] at none_
              cases none_
          | two =>
              apply CountResult.follow held.2 notZero.1 (by rw [kind]; rfl) _
                (after 1 1)
              intro low length
              match low, length with
              | [_], _ => rfl
          | three =>
              apply CountResult.follow held.2 notZero.1 (by rw [kind]; rfl) _
                (after 2 1)
              intro low length
              match low, length with
              | [_, _], _ => rfl
          | four =>
              apply CountResult.follow held.2 notZero.1 (by rw [kind]; rfl) _
                (after 3 2)
              intro low length
              match low, length with
              | [_, _, _], _ => rfl

end Counting

/-! ## Assigning -/

namespace CLR_RT_UnicodeHelper

/-- A string and its zero. -/
structure ZeroTerminated
    (memory : TextMemory)
    (string : Nat)
    (bytes : List UInt8) : Prop where
  notZero : ∀ byte ∈ bytes, byte ≠ 0
  held : Holds memory.utf8 string (bytes ++ [0])

/-- Moving consumes the bytes that converting as many units consumes. -/
def MovesAsItConverts
    (memory : TextMemory)
    (helper : CLR_RT_UnicodeHelper) : Prop :=
  ∀ (n : Nat) (iMaxBytes : Int), n + 2 ≤ helper.m_outputUTF16_size →
    let moved := helper.ConvertFromUTF8 memory n true iMaxBytes
    let converted := helper.ConvertFromUTF8 memory n false iMaxBytes
    moved.1 = converted.1 ∧
      moved.2.2.m_inputUTF8 = converted.2.2.m_inputUTF8

/-- Nothing but the array is written. -/
def WritesInside
    (memory after : TextMemory)
    (m_wCharArray : Nat)
    (m_length : Int) : Prop :=
  0 ≤ m_length ∧ ∀ place,
    (place < m_wCharArray ∨ (m_wCharArray : Int) + (m_length + 1) ≤ place) →
      after.utf16 place = memory.utf16 place

/-- A string becomes these units, in any buffer for them and in the one that
`Assign` allocates. -/
structure Sized
    (fuel : Nat)
    (memory : TextMemory)
    (bytes : List UInt8)
    (helper : CLR_RT_UnicodeHelper)
    (units : List UInt16) : Prop where
  converts : ∀ iMaxChars size : Int, iMaxChars ≤ mostChars →
    (units.length : Int) ≤ iMaxChars → (units.length : Int) < size →
    let converted := ConvertFromUTF8 memory iMaxChars false (-1)
      { helper with m_outputUTF16_size := size }
    Holds converted.2.1.utf16 helper.m_outputUTF16 units ∧
      converted.2.2.m_outputUTF16 = helper.m_outputUTF16 + units.length ∧
      converted.2.2.m_inputUTF8 = helper.m_inputUTF8 + bytes.length
  assigns : (units.length : Int) ≤ mostChars → ∀ m_wCharArray, ∃ after,
    Assign fuel memory helper.m_inputUTF8 (some m_wCharArray) helper =
        some (.S_OK after m_wCharArray units.length) ∧
      Holds after.utf16 m_wCharArray (units ++ [0])

variable
  {fuel : Nat}
  {memory : TextMemory}
  {helper : CLR_RT_UnicodeHelper}
  {bytes : List UInt8}

/-- The result of the helper in terms of its loop. -/
theorem convertFromUTF8_eq
    {fJustMove : Bool}
    {iMaxChars iMaxBytes : Int} :
    (helper.ConvertFromUTF8 memory iMaxChars fJustMove iMaxBytes).2 =
      helper.storeFromUTF8 memory (FromUTF8.final
        (((helper.fromUTF8 memory iMaxChars iMaxBytes).convert memory.utf8
          fJustMove).bind fun state => state.terminate fJustMove)) := by
  rw [ConvertFromUTF8]
  cases (helper.fromUTF8 memory iMaxChars iMaxBytes).convert memory.utf8
      fJustMove with
  | error exited => rfl
  | ok state =>
      rw [Except.bind]
      dsimp only
      cases state.terminate fJustMove with
      | error exited => rfl
      | ok after => rfl

theorem bounded_convertFromUTF8
    {fJustMove : Bool}
    {iMaxChars iMaxBytes : Int} :
    ∃ after, FromUTF8.Bounded (helper.fromUTF8 memory iMaxChars iMaxBytes) after ∧
      (helper.ConvertFromUTF8 memory iMaxChars fJustMove iMaxBytes).2 =
        helper.storeFromUTF8 memory after := by
  refine ⟨_, ?_, convertFromUTF8_eq⟩
  have walk : FromUTF8.Bounded (helper.fromUTF8 memory iMaxChars iMaxBytes)
      (FromUTF8.final ((helper.fromUTF8 memory iMaxChars iMaxBytes).convert
        memory.utf8 fJustMove)) := FromUTF8.bounded_convert
  cases run : (helper.fromUTF8 memory iMaxChars iMaxBytes).convert memory.utf8
      fJustMove with
  | error exited =>
      rw [run] at walk
      exact walk
  | ok state =>
      rw [run] at walk
      exact FromUTF8.Bounded.trans walk FromUTF8.bounded_terminate

theorem movesAsItConverts : MovesAsItConverts memory helper := by
  intro n iMaxBytes room
  have inStep : FromUTF8.InStep (helper.fromUTF8 memory n iMaxBytes)
      (helper.fromUTF8 memory n iMaxBytes) :=
    ⟨rfl, rfl, rfl, Int.le_trans (by decide) (Int.natCast_nonneg n), room⟩
  have ends : FromUTF8.EndInStep
      ((helper.fromUTF8 memory n iMaxBytes).convert memory.utf8 true)
      ((helper.fromUTF8 memory n iMaxBytes).convert memory.utf8 false) :=
    inStep.convert
  dsimp only
  rw [ConvertFromUTF8, ConvertFromUTF8]
  generalize (helper.fromUTF8 memory n iMaxBytes).convert memory.utf8 true =
    moved at ends
  generalize (helper.fromUTF8 memory n iMaxBytes).convert memory.utf8 false =
    converted at ends
  cases ends with
  | error same => exact ⟨rfl, same⟩
  | ok last =>
      have least := last.least
      have left := last.room
      dsimp only
      rw [FromUTF8.terminate, FromUTF8.terminate, if_pos rfl,
        if_neg Bool.false_ne_true, if_neg (by omega)]
      exact ⟨rfl, last.inputUTF8⟩

/-- What `Assign` gives has been written inside the array it allocates. -/
theorem assign_writesInside
    {string m_wCharArray : Nat}
    {m_length : Int}
    {allocated : Option Nat}
    {after : TextMemory}
    (assigned : Assign fuel memory string allocated helper =
      some (.S_OK after m_wCharArray m_length)) :
    WritesInside memory after m_wCharArray m_length := by
  unfold Assign at assigned
  dsimp only at assigned
  have ⟨count, counted, result⟩ := Option.map_eq_some_iff.mp assigned
  split at result
  · cases result
  case isFalse legal =>
    cases allocated with
    | none => cases result
    | some array =>
        cases result
        have size := Int.not_lt.mp legal
        refine ⟨size, ?_⟩
        intro place outside
        have ⟨last, bounded, stored⟩ :
            ∃ last, FromUTF8.Bounded (fromUTF8 memory m_length (-1) _) last ∧
              (ConvertFromUTF8 memory m_length false (-1)
                { helper with
                  m_inputUTF8 := string
                  m_outputUTF16 := m_wCharArray
                  m_outputUTF16_size := m_length + 1 }).2 = _ :=
          bounded_convertFromUTF8
        have written := congrArg (fun result => result.1.utf16 place) stored
        refine Eq.trans (Function.update_of_ne ?_ _ _)
          (Eq.trans written (bounded.outside place outside))
        omega

theorem sized_of_counted
    {characters : List (List UInt8)}
    (string : ZeroTerminated memory helper.m_inputUTF8 bytes)
    (count : helper.CountNumberOfCharacters fuel memory (-1) =
      some ((unitsOfAll characters).length : Int))
    (accepted : ∀ character ∈ characters, Accepted character)
    (flatten : characters.flatten = bytes) :
    Sized fuel memory bytes helper (unitsOfAll characters) where
  converts := by
    intro iMaxChars size _ chars room
    have converted : Converted
        { helper with m_outputUTF16_size := size } _ _ iMaxChars _ :=
      converted_characters accepted
        (by rw [flatten]; exact string.held) room chars (Or.inl rfl)
    rw [flatten] at converted
    exact ⟨converted.output, converted.outputEnd, converted.inputEnd⟩
  assigns := by
    intro _ m_wCharArray
    have converted : Converted
        { helper with
          m_outputUTF16 := m_wCharArray
          m_outputUTF16_size := (unitsOfAll characters).length + 1 } _ _
        ((unitsOfAll characters).length : Int) _ :=
      converted_characters accepted (by rw [flatten]; exact string.held)
        (Int.lt_succ _) (Int.le_refl _) (Or.inl rfl)
    unfold Assign
    dsimp only
    rw [count, Option.map_some,
      if_neg (Int.not_lt.mpr (Int.natCast_nonneg _))]
    refine ⟨_, rfl, ?_⟩
    dsimp only
    rw [holds_append, holds_cons, Int.toNat_natCast]
    refine ⟨?_, Function.update_self _ _ _, holds_nil⟩
    have written := converted.output
    unfold Holds at written ⊢
    refine Eq.trans (cellsAt_congr ?_) written
    intro place _ below
    exact Function.update_of_ne (by omega) _ _

/-- The count of a string that ends with zero. -/
theorem countNumberOfCharacters_result
    (string : ZeroTerminated memory helper.m_inputUTF8 bytes)
    (enough : bytes.length < fuel) :
    CountResult bytes 0 (helper.CountNumberOfCharacters fuel memory (-1)) :=
  countCharacters_result (by decide) string.notZero string.held enough

end CLR_RT_UnicodeHelper

open CLR_RT_UnicodeHelper

/-- Moving goes as far as converting, and `Assign` writes only its array. The
count is negative for an illegal string, which `Assign` refuses; otherwise, it
is that of the units unless a restricted byte occurs. -/
theorem countNumberOfCharacters_sizes
    {fuel : Nat}
    {memory : TextMemory}
    {helper : CLR_RT_UnicodeHelper}
    {bytes : List UInt8}
    (string : ZeroTerminated memory helper.m_inputUTF8 bytes)
    (enough : bytes.length < fuel) :
    MovesAsItConverts memory helper ∧
      (∀ allocated after m_wCharArray m_length,
        Assign fuel memory helper.m_inputUTF8 allocated helper =
            some (.S_OK after m_wCharArray m_length) →
          WritesInside memory after m_wCharArray m_length) ∧
      ∃ count,
        helper.CountNumberOfCharacters fuel memory (-1) = some count ∧
          (count < 0 ↔ ¬ Legal bytes) ∧
          (count < 0 → ∀ allocated,
            Assign fuel memory helper.m_inputUTF8 allocated helper =
              some .CLR_E_INVALID_PARAMETER) ∧
          (0 ≤ count → (∀ byte ∈ bytes, ¬ Restricted byte) →
            ∃ units, count = (units.length : Int) ∧
              Sized fuel memory bytes helper units) := by
  refine ⟨movesAsItConverts, fun _ _ _ _ => assign_writesInside, ?_⟩
  have result := countNumberOfCharacters_result string enough
  generalize counted : helper.CountNumberOfCharacters fuel memory (-1) = value
    at result
  cases result with
  | illegal notLegal =>
      refine ⟨-1, rfl, iff_of_true (by decide) notLegal, ?_, ?_⟩
      · intro negative allocated
        unfold Assign
        dsimp only
        rw [counted, Option.map_some, if_pos negative]
      · intro legal
        exact absurd legal (by decide)
  | counted characters all flatten =>
      rw [Int.zero_add] at counted ⊢
      have positive := Int.natCast_nonneg (unitsOfAll characters).length
      refine ⟨_, rfl, ?_, ?_, ?_⟩
      · apply iff_of_false (Int.not_lt.mpr positive)
        exact not_not_intro ⟨characters, all, flatten⟩
      · intro negative
        exact absurd negative (Int.not_lt.mpr positive)
      · intro _ free
        refine ⟨unitsOfAll characters, rfl, ?_⟩
        apply sized_of_counted string counted _ flatten
        intro character member
        apply accepted_of_counted (all character member)
        intro byte inside
        apply free
        rw [← flatten]
        exact List.mem_flatten.mpr ⟨character, member, inside⟩

/-- A memory that starts with some bytes and a zero. -/
def byteMemory (bytes : List UInt8) : TextMemory where
  utf8 := fun address => bytes.getD address 0
  utf16 := fun _ => 0

/-- A letter and an accented one become two units. -/
theorem countNumberOfCharacters_sizes_letters :
    MovesAsItConverts (byteMemory [0x61, 0xC3, 0xA9]) (helperAtStart 3) ∧
      (∀ allocated after m_wCharArray m_length,
        Assign 4 (byteMemory [0x61, 0xC3, 0xA9]) 0 allocated
            (helperAtStart 3) = some (.S_OK after m_wCharArray m_length) →
          WritesInside (byteMemory [0x61, 0xC3, 0xA9]) after m_wCharArray
            m_length) ∧
      Legal [0x61, 0xC3, 0xA9] ∧
      ∃ units : List UInt16, units.length = 2 ∧
        Sized 4 (byteMemory [0x61, 0xC3, 0xA9]) [0x61, 0xC3, 0xA9]
          (helperAtStart 3) units := by
  have string : ZeroTerminated (byteMemory [0x61, 0xC3, 0xA9]) 0
      [0x61, 0xC3, 0xA9] :=
    { notZero := List.all_iff_forall_prop.mp (by decide)
      held := by exact rfl }
  have free : ∀ byte ∈ [0x61, 0xC3, 0xA9], ¬ Restricted byte := by
    unfold Restricted
    exact List.all_iff_forall_prop.mp (by decide)
  obtain ⟨moves, writes, count, counted, negative, -, sized⟩ :=
    @countNumberOfCharacters_sizes 4 _ (helperAtStart 3) _ string (by decide)
  have isTwo : (helperAtStart 3).CountNumberOfCharacters 4
      (byteMemory [0x61, 0xC3, 0xA9]) (-1) = some 2 := by decide
  rw [isTwo, Option.some_inj] at counted
  rw [← counted] at negative sized
  obtain ⟨units, length, isSized⟩ := sized (by decide) free
  refine ⟨moves, writes, ?_, units, by omega, isSized⟩
  by_contra notLegal
  exact absurd (negative.mpr notLegal) (by decide)

/-- A low part without a lead is counted as an error, after a letter has been
converted. -/
theorem countNumberOfCharacters_ne_converted :
    ZeroTerminated (byteMemory [0x61, 0x80]) 0 [0x61, 0x80] ∧
      (helperAtStart 3).CountNumberOfCharacters 3 (byteMemory [0x61, 0x80])
        (-1) = some (-1) ∧
      ((helperAtStart 3).ConvertFromUTF8 (byteMemory [0x61, 0x80]) 2 false
        (-1)).2.2.m_outputUTF16 = 1 := by
  refine ⟨⟨List.all_iff_forall_prop.mp (by decide), by exact rfl⟩,
    by decide, ?_⟩
  rw [convertFromUTF8_eq, FromUTF8.convert_step (by decide) rfl,
    FromUTF8.convert_exit (by decide) rfl]
  rfl

end Text

end NanoClr
