import NanoClr.Text.ReadCharacters

/-!
# The rounds of a search

What one round of `IndexOf` finds at a position, and where it goes next, in
terms of the units of the text behind the position.
-/

namespace NanoClr

namespace Text

open Arrays CLR_RT_UnicodeHelper

/-- The unit is one of a surrogate pair. -/
def IsSurrogate (unit : UInt16) : Prop :=
  0xD800 ≤ unit.toNat ∧ unit.toNat ≤ 0xDFFF

/-- What is looked for, as characters. -/
inductive Wanted where
  | chars (pChars : List UInt16)
  | string (characters : List Char)

namespace Wanted

/-- What is sought in the encoding of the search. -/
def sought : Wanted → Sought
  | chars pChars => .chars pChars
  | string characters => .string (utf8Of characters)

/-- The units that an occurrence takes. -/
def length : Wanted → Nat
  | chars _ => 1
  | string characters => (utf16Of characters).length

/-- The units of a text begin with an occurrence. -/
def Occurs (rest : List UInt16) : Wanted → Prop
  | chars pChars => ∃ unit ∈ pChars, rest.head? = some unit
  | string characters => utf16Of characters <+: rest

/-- A surrogate is met before it is known whether there is an occurrence. -/
def CutOff (rest : List UInt16) : Wanted → Prop
  | chars _ => ∃ unit, rest.head? = some unit ∧ IsSurrogate unit
  | string characters =>
      ∃ place < (utf16Of characters).length,
        rest.take place = (utf16Of characters).take place ∧
          ∃ unit, rest[place]? = some unit ∧ IsSurrogate unit

end Wanted

/-! ## Characters and their units -/

section Units

variable {character : Char} {characters rest : List Char}

theorem utf16Of_cons_small
    (small : character.toNat < 0x10000) :
    utf16Of (character :: characters) =
      unitOf character :: utf16Of characters := by
  rw [utf16Of, List.flatMap_cons, utf16EncodeChar_one small]
  rfl

theorem unitOf_toNat (small : character.toNat < 0x10000) :
    (unitOf character).toNat = character.toNat :=
  toNat_ofNat_unit small

theorem unitOf_notSurrogate (small : character.toNat < 0x10000) :
    ¬ IsSurrogate (unitOf character) := by
  have outside := character_notSurrogate character
  rw [IsSurrogate, unitOf_toNat small]
  omega

/-- The units of another character begin with a surrogate. -/
theorem utf16Of_cons_large
    (large : 0x10000 ≤ character.toNat) :
    ∃ high low, utf16Of (character :: characters) =
        high :: low :: utf16Of characters ∧
      IsSurrogate high ∧ IsSurrogate low := by
  have bound := character_lt character
  have units : utf16Of (character :: characters) =
      UInt16.ofNat (0xD800 + (character.toNat - 0x10000) / 0x400) ::
        UInt16.ofNat (0xDC00 + (character.toNat - 0x10000) % 0x400) ::
          utf16Of characters := by
    rw [utf16Of, List.flatMap_cons, utf16EncodeChar_two large]
    rfl
  refine ⟨_, _, units, ?_, ?_⟩
  · rw [IsSurrogate, toNat_ofNat_unit (by omega)]
    omega
  · rw [IsSurrogate, toNat_ofNat_unit (by omega)]
    omega

end Units

/-! ## Comparing with the search string -/

/-- What the comparison of a search string comes to. -/
def compareCharacters : List Char → List Char → Comparison
  | [], _ => .found
  | wanted :: others, after =>
      if 0x10000 ≤ wanted.toNat then .found
      else
        match after with
        | [] => .finished
        | character :: rest =>
            if 0x10000 ≤ character.toNat then .finished
            else if unitOf character ≠ unitOf wanted then .different
            else compareCharacters others rest

theorem compareCharacters_large
    {wanted : Char}
    {others after : List Char}
    (large : 0x10000 ≤ wanted.toNat) :
    compareCharacters (wanted :: others) after = .found := by
  cases after with
  | nil => exact if_pos large
  | cons character rest => exact if_pos large

theorem loop_compareRound
    {memory : TextMemory}
    {before after passed wanted : List Char}
    {pString rounds : Nat}
    {inputString searchString : CLR_RT_UnicodeHelper}
    (input : AtCursor memory 0 before after inputString)
    (search : AtCursor memory pString passed wanted searchString)
    (enough : wanted.length < rounds) :
    loop compareRound rounds ⟨memory, inputString, searchString⟩ =
      some (compareCharacters wanted after) := by
  induction wanted generalizing memory before after passed rounds inputString
    searchString with
  | nil =>
      obtain ⟨rounds, rfl⟩ := Nat.exists_eq_add_of_lt enough
      apply loop_succ_done
      unfold compareRound
      dsimp only
      rw [search.read_fails bufSearch (by simp), if_pos rfl]
      rfl
  | cons character others inductionHypothesis =>
      obtain ⟨rounds, rfl⟩ := Nat.exists_eq_add_of_lt enough
      by_cases large : 0x10000 ≤ character.toNat
      · apply loop_succ_done
        unfold compareRound
        dsimp only
        rw [search.read_fails bufSearch (by simpa using large), if_pos rfl,
          compareCharacters_large large]
      · have small := Nat.not_le.mp large
        obtain ⟨memory', searchString', searchRead, searchUnit, -, same,
          search'⟩ := search.read bufSearch small
        have input' := input.withMemory same
        cases after with
        | nil =>
            rw [compareCharacters, if_neg large]
            apply loop_succ_done
            unfold compareRound
            dsimp only
            rw [searchRead, input'.read_fails bufInput (by simp)]
            rfl
        | cons first rest =>
            rw [compareCharacters, if_neg large]
            by_cases outside : 0x10000 ≤ first.toNat
            · rw [if_pos outside]
              apply loop_succ_done
              unfold compareRound
              dsimp only
              rw [searchRead,
                input'.read_fails bufInput (by simpa using outside)]
              rfl
            · obtain ⟨memory'', inputString', inputRead, inputUnit, kept, same',
                input''⟩ := input'.read bufInput (Nat.not_le.mp outside)
              have searchKept := (kept bufSearch (by decide)).trans searchUnit
              rw [if_neg outside]
              have round : compareRound ⟨memory, inputString, searchString⟩ =
                  if unitOf first ≠ unitOf character then .done .different
                  else .next ⟨memory'', inputString', searchString'⟩ := by
                unfold compareRound
                dsimp only
                rw [searchRead]
                dsimp only
                rw [inputRead]
                dsimp only
                rw [inputUnit, searchKept]
                rfl
              by_cases differ : unitOf first ≠ unitOf character
              · rw [if_pos differ] at round ⊢
                exact loop_succ_done round
              · rw [if_neg differ] at round ⊢
                rw [loop_succ_next round]
                exact inductionHypothesis input''
                  (search'.withMemory same') (by
                    simp only [List.length_cons]
                    omega)

/-- The characters of a search string that are compared: those before one
outside the basic multilingual plane, which ends the search string. -/
def comparedPart (characters : List Char) : List Char :=
  characters.takeWhile fun character => character.toNat < 0x10000

theorem comparedPart_inPlane
    (characters : List Char) :
    ∀ character ∈ comparedPart characters, character.toNat < 0x10000 := by
  intro character member
  have isCompared := List.mem_takeWhile_imp member
  simpa using isCompared

theorem compareCharacters_comparedPart (wanted after : List Char) :
    compareCharacters wanted after =
      compareCharacters (comparedPart wanted) after := by
  induction wanted generalizing after with
  | nil => rfl
  | cons character others inductionHypothesis =>
      by_cases large : 0x10000 ≤ character.toNat
      · have part : comparedPart (character :: others) = [] :=
          List.takeWhile_cons_of_neg (by simpa using large)
        rw [compareCharacters_large large, part]
        rfl
      · have part : comparedPart (character :: others) =
            character :: comparedPart others :=
          List.takeWhile_cons_of_pos (by simpa using large)
        rw [part]
        cases after with
        | nil => rw [compareCharacters, compareCharacters]
        | cons first rest =>
            rw [compareCharacters, compareCharacters,
              inductionHypothesis rest]

section Compared

variable {wanted after : List Char}

/-- The comparison finds the search string where its units are. -/
theorem compareCharacters_found_iff
    (inPlane : ∀ character ∈ wanted, character.toNat < 0x10000) :
    compareCharacters wanted after = .found ↔
      utf16Of wanted <+: utf16Of after := by
  induction wanted generalizing after with
  | nil =>
      rw [compareCharacters]
      exact iff_of_true rfl List.nil_prefix
  | cons character others inductionHypothesis =>
      rw [List.forall_mem_cons] at inPlane
      have large := Nat.not_le.mpr inPlane.1
      rw [utf16Of_cons_small inPlane.1]
      cases after with
      | nil =>
          rw [compareCharacters, if_neg large]
          exact iff_of_false (by decide) (by simp [utf16Of])
      | cons first rest =>
          rw [compareCharacters, if_neg large]
          by_cases outside : 0x10000 ≤ first.toNat
          · obtain ⟨high, low, units, isHigh, -⟩ :=
              utf16Of_cons_large outside
            rw [if_pos outside, units, List.cons_prefix_cons]
            apply iff_of_false (by decide)
            rintro ⟨same, -⟩
            exact unitOf_notSurrogate inPlane.1 (same ▸ isHigh)
          · rw [if_neg outside, utf16Of_cons_small (Nat.not_le.mp outside),
              List.cons_prefix_cons, eq_comm (a := unitOf character)]
            by_cases same : unitOf first = unitOf character
            · rw [if_neg (not_not.mpr same), inductionHypothesis inPlane.2]
              simp [same]
            · rw [if_pos same]
              exact iff_of_false (by decide) fun both => same both.1

/-- The comparison ends early at a surrogate or at the end of the text. -/
theorem compareCharacters_finished
    (inPlane : ∀ character ∈ wanted, character.toNat < 0x10000)
    (finished : compareCharacters wanted after = .finished) :
    (Wanted.string wanted).CutOff (utf16Of after) ∨
      (utf16Of after).length < (utf16Of wanted).length := by
  induction wanted generalizing after with
  | nil => cases finished
  | cons character others inductionHypothesis =>
      rw [List.forall_mem_cons] at inPlane
      have large := Nat.not_le.mpr inPlane.1
      simp only [Wanted.CutOff, utf16Of_cons_small inPlane.1]
      cases after with
      | nil => exact Or.inr (Nat.succ_pos _)
      | cons first rest =>
          rw [compareCharacters, if_neg large] at finished
          by_cases outside : 0x10000 ≤ first.toNat
          · obtain ⟨high, low, units, isHigh, -⟩ :=
              utf16Of_cons_large outside
            rw [units]
            exact Or.inl ⟨0, Nat.succ_pos _, rfl, high, rfl, isHigh⟩
          · rw [if_neg outside] at finished
            rw [utf16Of_cons_small (Nat.not_le.mp outside)]
            split at finished
            case isTrue => cases finished
            case isFalse same =>
              rcases inductionHypothesis inPlane.2 finished with
                ⟨place, below, sameUnits, unit, isThere, surrogate⟩ | short
              · refine Or.inl ⟨place + 1, Nat.succ_lt_succ below, ?_, unit,
                  isThere, surrogate⟩
                rw [List.take_succ_cons, List.take_succ_cons, sameUnits,
                  not_not.mp same]
              · exact Or.inr (Nat.succ_lt_succ short)

end Compared

/-! ## Rounds -/

namespace Wanted

/-- What is compared of what is wanted. -/
def compared : Wanted → Wanted
  | chars pChars => chars pChars
  | string characters => string (comparedPart characters)

/-- The round of the loop of `tryPositions`. -/
def round
    (charIsSigned last : Bool)
    (pString : Nat)
    (wanted : Wanted) : IndexOfState → LoopStep IndexOfState Int :=
  match wanted.sought with
  | .chars pChars => charRound charIsSigned last pChars
  | .string text => stringRound charIsSigned last pString text.length

/-- The search string is where it belongs. -/
def Held (memory : TextMemory) (pString : Nat) : Wanted → Prop
  | chars _ => True
  | string characters =>
      AtCursor memory pString [] characters (inputAt pString)

theorem Held.withMemory
    {memory memory' : TextMemory}
    {pString : Nat}
    {wanted : Wanted}
    (held : wanted.Held memory pString)
    (same : memory'.utf8 = memory.utf8) :
    wanted.Held memory' pString := by
  cases wanted with
  | chars pChars => exact trivial
  | string characters => exact AtCursor.withMemory held same

end Wanted

/-- The loop stands at a position of the text. -/
structure AtPosition
    (pString : Nat)
    (wanted : Wanted)
    (before after : List Char)
    (state : IndexOfState) : Prop where
  input : AtCursor state.memory 0 before after state.inputIterator
  search : wanted.Held state.memory pString

section Rounds

variable
  {charIsSigned last : Bool}
  {pString : Nat}
  {pChars : List UInt16}
  {characters before after : List Char}
  {state : IndexOfState}

theorem charRound_fails
    (at_ : AtPosition pString (.chars pChars) before after state)
    (stops : ∀ character ∈ after.head?, 0x10000 ≤ character.toNat) :
    charRound charIsSigned last pChars state = .done (-1) := by
  unfold charRound
  dsimp only
  rw [at_.input.read_fails bufInput stops]
  rfl

theorem charRound_read
    {character : Char}
    (at_ : AtPosition pString (.chars pChars) before (character :: after)
      state)
    (inPlane : character.toNat < 0x10000) :
    ∃ memory' helper',
      memory'.utf8 = state.memory.utf8 ∧
        AtCursor memory' 0 (before ++ [character]) after helper' ∧
        charRound charIsSigned last pChars state =
          if unitOf character ∈ pChars then .done state.startIndex
          else if last then
            let back := helper'.MoveBackwardInUTF8 charIsSigned memory' 0 2
            if back.1 then .next ⟨state.startIndex - 1, memory', back.2⟩
            else .done (-1)
          else .next ⟨state.startIndex + 1, memory', helper'⟩ := by
  obtain ⟨memory', helper', read, unit, -, same, input⟩ :=
    at_.input.read bufInput inPlane
  refine ⟨memory', helper', same, input, ?_⟩
  unfold charRound
  dsimp only
  rw [read]
  dsimp only
  rw [unit, if_neg (by decide)]

theorem length_le_utf8Of (characters : List Char) :
    characters.length ≤ (utf8Of characters).length := by
  induction characters with
  | nil => exact Nat.le_refl 0
  | cons character characters inductionHypothesis =>
      have some : 0 < (String.utf8EncodeChar character).length :=
        List.length_pos_iff.mpr utf8EncodeChar_ne_nil
      rw [utf8Of_cons, List.length_cons, List.length_append]
      omega

theorem compareString_eq
    (at_ : AtPosition pString (.string characters) before after state) :
    compareString pString (utf8Of characters).length state.memory
        state.inputIterator =
      some (compareCharacters (comparedPart characters) after) := by
  have input : AtCursor state.memory 0 before after
      (inputAt state.inputIterator.m_inputUTF8) :=
    ⟨at_.input.notZero, at_.input.held, at_.input.cursor⟩
  rw [← compareCharacters_comparedPart, compareString,
    loop_compareRound input at_.search]
  exact Nat.lt_succ_of_le (length_le_utf8Of characters)

/-- A round in the mode for strings. -/
theorem stringRound_eq
    (at_ : AtPosition pString (.string characters) before after state) :
    stringRound charIsSigned last pString (utf8Of characters).length state =
      match compareCharacters (comparedPart characters) after with
      | .found => .done state.startIndex
      | .finished => .done (-1)
      | .different =>
          if last then
            let back := state.inputIterator.MoveBackwardInUTF8 charIsSigned
              state.memory 0 1
            if back.1 then .next ⟨state.startIndex - 1, state.memory, back.2⟩
            else .done (-1)
          else
            let moved := state.inputIterator.ConvertFromUTF8 state.memory 1
              true (-1)
            if moved.1 then .next ⟨state.startIndex + 1, moved.2.1, moved.2.2⟩
            else .done (-1) := by
  unfold stringRound
  rw [compareString_eq at_]
  cases compareCharacters (comparedPart characters) after <;> rfl

variable {wanted : Wanted}

/-- A character of the plane is at the position. -/
theorem head_inPlane
    (occurs : (Wanted.chars pChars).Occurs (utf16Of after))
    (notCut : ¬ (Wanted.chars pChars).CutOff (utf16Of after)) :
    ∃ character rest, after = character :: rest ∧
      character.toNat < 0x10000 ∧ unitOf character ∈ pChars := by
  obtain ⟨unit, isWanted, isHead⟩ := occurs
  cases after with
  | nil => cases isHead
  | cons character rest =>
      by_cases large : 0x10000 ≤ character.toNat
      · obtain ⟨high, low, units, isHigh, -⟩ := utf16Of_cons_large large
        exact absurd ⟨high, by rw [units]; rfl, isHigh⟩ notCut
      · have small := Nat.not_le.mp large
        rw [utf16Of_cons_small small] at isHead
        cases isHead
        exact ⟨character, rest, rfl, small, isWanted⟩

theorem round_found
    (at_ : AtPosition pString wanted before after state)
    (occurs : wanted.compared.Occurs (utf16Of after))
    (notCut : ¬ wanted.compared.CutOff (utf16Of after)) :
    wanted.round charIsSigned last pString state =
      .done state.startIndex := by
  cases wanted with
  | chars pChars =>
      obtain ⟨character, rest, rfl, small, isWanted⟩ :=
        head_inPlane occurs notCut
      obtain ⟨memory', helper', -, -, round⟩ := charRound_read at_ small
      exact round.trans (if_pos isWanted)
  | string characters =>
      have found := (compareCharacters_found_iff
        (comparedPart_inPlane characters)).mpr occurs
      refine (stringRound_eq at_).trans ?_
      rw [found]

theorem notWanted_of_noOccurrence
    {character : Char}
    (small : character.toNat < 0x10000)
    (noOccurrence : ¬ (Wanted.chars pChars).Occurs
      (utf16Of (character :: after))) :
    unitOf character ∉ pChars := by
  intro isWanted
  refine noOccurrence ⟨_, isWanted, ?_⟩
  rw [utf16Of_cons_small small]
  rfl

/-- Where there is no occurrence nothing is found. -/
theorem round_done
    (at_ : AtPosition pString wanted before after state)
    (noOccurrence : ¬ wanted.compared.Occurs (utf16Of after))
    {result : Int}
    (done : wanted.round charIsSigned last pString state = .done result) :
    result = -1 := by
  cases wanted with
  | chars pChars =>
      by_cases stops : ∀ character ∈ after.head?, 0x10000 ≤ character.toNat
      · have fails := (charRound_fails at_ stops).symm.trans done
        exact (LoopStep.done.inj fails).symm
      · cases after with
        | nil => exact absurd (by simp) stops
        | cons character rest =>
            have small : character.toNat < 0x10000 := by simpa using stops
            obtain ⟨memory', helper', -, -, round⟩ := charRound_read at_ small
            have notWanted := notWanted_of_noOccurrence small noOccurrence
            have ended := round.symm.trans done
            rw [if_neg notWanted] at ended
            dsimp only at ended
            split at ended
            · split at ended
              · cases ended
              · exact (LoopStep.done.inj ended).symm
            · cases ended
  | string characters =>
      have notFound := mt (compareCharacters_found_iff
        (comparedPart_inPlane characters)).mp noOccurrence
      have ended := (stringRound_eq at_).symm.trans done
      cases comparison : compareCharacters (comparedPart characters) after with
      | found => exact absurd comparison notFound
      | finished =>
          rw [comparison] at ended
          exact (LoopStep.done.inj ended).symm
      | different =>
          rw [comparison] at ended
          dsimp only at ended
          split at ended <;> split at ended <;>
            first
            | exact (LoopStep.done.inj ended).symm
            | cases ended

/-- What stands at a position where neither an occurrence nor a surrogate nor
the end is met. -/
theorem compared_different
    (noOccurrence : ¬ (Wanted.string characters).compared.Occurs
      (utf16Of after))
    (notCut : ¬ (Wanted.string characters).compared.CutOff (utf16Of after))
    (long : (Wanted.string characters).compared.length ≤
      (utf16Of after).length) :
    compareCharacters (comparedPart characters) after = .different := by
  have inPlane := comparedPart_inPlane characters
  cases comparison : compareCharacters (comparedPart characters) after with
  | found =>
      exact absurd ((compareCharacters_found_iff inPlane).mp comparison)
        noOccurrence
  | finished =>
      rcases compareCharacters_finished inPlane comparison with cut | short
      · exact absurd cut notCut
      · exact absurd long (Nat.not_le.mpr short)
  | different => rfl

theorem head_of_notCut
    (notCut : ¬ (Wanted.chars pChars).CutOff (utf16Of after))
    (long : 1 ≤ (utf16Of after).length) :
    ∃ character rest, after = character :: rest ∧
      character.toNat < 0x10000 := by
  cases after with
  | nil => exact absurd long (by decide)
  | cons character rest =>
      refine ⟨character, rest, rfl, Nat.not_le.mp ?_⟩
      intro large
      obtain ⟨high, low, units, isHigh, -⟩ := utf16Of_cons_large large
      exact notCut ⟨high, by rw [units]; rfl, isHigh⟩

/-- The first character behind a position that is not the search string. -/
theorem head_of_different
    (different : compareCharacters (comparedPart characters) after =
      .different) :
    ∃ character rest, after = character :: rest ∧
      character.toNat < 0x10000 := by
  cases compared : comparedPart characters with
  | nil =>
      rw [compared, compareCharacters] at different
      cases different
  | cons wanted others =>
      have small : wanted.toNat < 0x10000 := by
        apply comparedPart_inPlane characters
        rw [compared]
        exact List.mem_cons_self
      rw [compared] at different
      cases after with
      | nil =>
          rw [compareCharacters, if_neg (Nat.not_le.mpr small)] at different
          cases different
      | cons character rest =>
          refine ⟨character, rest, rfl, Nat.not_le.mp ?_⟩
          intro large
          rw [compareCharacters, if_neg (Nat.not_le.mpr small), if_pos large]
            at different
          cases different

/-! ## Forward -/

/-- The round in the mode for strings goes on behind the next character. -/
theorem stringRound_forward
    {character : Char}
    (at_ : AtPosition pString (.string characters) before (character :: after)
      state)
    (small : character.toNat < 0x10000)
    (different : compareCharacters (comparedPart characters)
      (character :: after) = .different) :
    ∃ state', (Wanted.string characters).round charIsSigned false pString
        state = .next state' ∧
      state'.startIndex = state.startIndex + 1 ∧
      AtPosition pString (.string characters) (before ++ [character]) after
        state' := by
  have first : AtCursor state.memory 0 before ([character] ++ after)
      state.inputIterator := at_.input
  have moved := first.move
  rw [utf16Of_cons_small small] at moved
  have one : state.inputIterator.ConvertFromUTF8 state.memory 1 true (-1) =
      _ := moved
  have round : stringRound charIsSigned false pString
      (utf8Of characters).length state = _ := stringRound_eq at_
  rw [different] at round
  dsimp only at round
  rw [if_neg Bool.false_ne_true, one, if_pos rfl] at round
  exact ⟨_, round, rfl, first.forward rfl rfl, at_.search⟩

/-- Forward a round that goes on does so behind the next character. -/
theorem round_forward
    {state' : IndexOfState}
    (at_ : AtPosition pString wanted before after state)
    (goesOn : wanted.round charIsSigned false pString state = .next state') :
    ∃ character rest, after = character :: rest ∧
      character.toNat < 0x10000 ∧
      state'.startIndex = state.startIndex + 1 ∧
      AtPosition pString wanted (before ++ [character]) rest state' := by
  cases wanted with
  | chars pChars =>
      by_cases stops : ∀ character ∈ after.head?, 0x10000 ≤ character.toNat
      · cases (charRound_fails at_ stops).symm.trans goesOn
      · cases after with
        | nil => exact absurd (by simp) stops
        | cons character rest =>
            have small : character.toNat < 0x10000 := by simpa using stops
            obtain ⟨memory', helper', same, input, round⟩ :=
              charRound_read at_ small
            have next := round.symm.trans goesOn
            split at next
            · cases next
            · rw [if_neg Bool.false_ne_true] at next
              cases next
              exact ⟨character, rest, rfl, small, rfl, input,
                at_.search.withMemory same⟩
  | string characters =>
      have round : stringRound charIsSigned false pString
          (utf8Of characters).length state = _ := stringRound_eq at_
      cases comparison : compareCharacters (comparedPart characters) after with
      | found =>
          rw [comparison] at round
          cases round.symm.trans goesOn
      | finished =>
          rw [comparison] at round
          cases round.symm.trans goesOn
      | different =>
          obtain ⟨character, rest, rfl, small⟩ := head_of_different comparison
          obtain ⟨next, isNext, index, position⟩ :=
            stringRound_forward at_ small comparison
          cases isNext.symm.trans goesOn
          exact ⟨character, rest, rfl, small, index, position⟩

/-- Without occurrence, surrogate or end the search goes on forward. -/
theorem round_goesForward
    (at_ : AtPosition pString wanted before after state)
    (noOccurrence : ¬ wanted.compared.Occurs (utf16Of after))
    (notCut : ¬ wanted.compared.CutOff (utf16Of after))
    (long : wanted.compared.length ≤ (utf16Of after).length) :
    ∃ state', wanted.round charIsSigned false pString state =
      .next state' := by
  cases wanted with
  | chars pChars =>
      obtain ⟨character, rest, rfl, small⟩ := head_of_notCut notCut long
      obtain ⟨memory', helper', -, -, round⟩ := charRound_read at_ small
      have notWanted := notWanted_of_noOccurrence small noOccurrence
      rw [if_neg notWanted, if_neg Bool.false_ne_true] at round
      exact ⟨_, round⟩
  | string characters =>
      have different := compared_different noOccurrence notCut long
      obtain ⟨character, rest, rfl, small⟩ := head_of_different different
      obtain ⟨next, isNext, -, -⟩ := stringRound_forward at_ small different
      exact ⟨next, isNext⟩

/-! ## Backward -/

theorem utf8Of_length_ascii
    {middle : List Char}
    (ascii : ∀ character ∈ middle, character.toNat < 0x80) :
    (utf8Of middle).length = middle.length := by
  induction middle with
  | nil => rfl
  | cons character middle inductionHypothesis =>
      rw [List.forall_mem_cons] at ascii
      rw [utf8Of_cons, utf8EncodeChar_one ascii.1, List.length_append,
        inductionHypothesis ascii.2]
      exact Nat.add_comm 1 middle.length

/-- The helper moves back over characters in ASCII. -/
theorem back_ascii
    {memory : TextMemory}
    {middle : List Char}
    {helper : CLR_RT_UnicodeHelper}
    (at_ : AtCursor memory 0 (before ++ middle) after helper)
    (some : middle ≠ [])
    (ascii : ∀ character ∈ middle, character.toNat < 0x80) :
    ∃ helper',
      helper.MoveBackwardInUTF8 charIsSigned memory 0 middle.length =
          (true, helper') ∧
        AtCursor memory 0 before (middle ++ after) helper' := by
  have length := utf8Of_length_ascii ascii
  have cursor := at_.cursor
  rw [utf8Of_append, List.length_append, length] at cursor
  have positive := List.length_pos_iff.mpr some
  refine ⟨_, back_eq charIsSigned positive (by omega), at_.backward ?_⟩
  rw [length]
  exact Nat.sub_add_cancel (by omega)

/-- Over characters in ASCII the search goes on backward. -/
theorem round_goesBack
    {previous : Char}
    (at_ : AtPosition pString wanted (before ++ [previous]) after state)
    (noOccurrence : ¬ wanted.compared.Occurs (utf16Of after))
    (notCut : ¬ wanted.compared.CutOff (utf16Of after))
    (long : wanted.compared.length ≤ (utf16Of after).length)
    (ascii : previous.toNat < 0x80)
    (asciiHead : ∀ pChars, wanted = .chars pChars →
      ∀ character ∈ after.head?, character.toNat < 0x80) :
    ∃ state', wanted.round charIsSigned true pString state = .next state' ∧
      state'.startIndex = state.startIndex - 1 ∧
      AtPosition pString wanted before (previous :: after) state' := by
  cases wanted with
  | chars pChars =>
      obtain ⟨character, rest, rfl, small⟩ := head_of_notCut notCut long
      obtain ⟨memory', helper', same, input, round⟩ := charRound_read at_ small
      have notWanted := notWanted_of_noOccurrence small noOccurrence
      have asciiHere := asciiHead pChars rfl character rfl
      rw [List.append_assoc] at input
      obtain ⟨helper'', back, input'⟩ := back_ascii input (List.cons_ne_nil _ _)
        (by
          intro other member
          simp only [List.mem_append, List.mem_singleton] at member
          rcases member with rfl | rfl
          · exact ascii
          · exact asciiHere)
      have two : helper'.MoveBackwardInUTF8 charIsSigned memory' 0 2 =
          (true, helper'') := back
      rw [if_neg notWanted, if_pos rfl, two] at round
      exact ⟨_, round, rfl, input', at_.search.withMemory same⟩
  | string characters =>
      have different := compared_different noOccurrence notCut long
      have round : stringRound charIsSigned true pString
          (utf8Of characters).length state = _ := stringRound_eq at_
      rw [different] at round
      obtain ⟨helper', back, input'⟩ := back_ascii at_.input
        (List.cons_ne_nil _ _) (List.forall_mem_singleton.mpr ascii)
      have one : state.inputIterator.MoveBackwardInUTF8 charIsSigned
          state.memory 0 1 = (true, helper') := back
      dsimp only at round
      rw [if_pos rfl, one] at round
      exact ⟨_, round, rfl, input', at_.search⟩

/-! ## Inside a character -/

/-- The loop stands at a byte that no character begins with. -/
structure InCharacter
    (pString : Nat)
    (wanted : Wanted)
    (state : IndexOfState) : Prop where
  lowPart : byteClass (state.memory.utf8 state.inputIterator.m_inputUTF8) =
    .lowPart
  search : wanted.Held state.memory pString

theorem byteClass_low (value : Nat) :
    byteClass (UInt8.ofNat (value % 64 + 0x80)) = .lowPart := by
  have table : ∀ low : Fin 64,
      byteClass (UInt8.ofNat (low.val + 0x80)) = .lowPart := by
    decide
  exact table ⟨value % 64, Nat.mod_lt _ (by decide)⟩

/-- A character is one byte, or its other bytes begin no character. -/
theorem lowParts_of_character (character : Char) :
    character.toNat < 0x80 ∨
      ∃ ch low, String.utf8EncodeChar character = ch :: low ∧ low ≠ [] ∧
        ∀ byte ∈ low, byteClass byte = .lowPart := by
  apply character_cases character
  · exact Or.inl
  · intro large small
    refine Or.inr ⟨_, _, utf8EncodeChar_two large small,
      List.cons_ne_nil _ _, ?_⟩
    exact List.forall_mem_singleton.mpr (byteClass_low _)
  · intro large small
    refine Or.inr ⟨_, _, utf8EncodeChar_three large small,
      List.cons_ne_nil _ _, ?_⟩
    simp only [List.forall_mem_cons]
    exact ⟨byteClass_low _, byteClass_low _, by simp⟩
  · intro large
    refine Or.inr ⟨_, _, utf8EncodeChar_four large, List.cons_ne_nil _ _, ?_⟩
    simp only [List.forall_mem_cons]
    exact ⟨byteClass_low _, byteClass_low _, byteClass_low _, by simp⟩

theorem read_fails_lowPart
    {memory : TextMemory}
    {helper : CLR_RT_UnicodeHelper}
    (buf : Nat)
    (lowPart : byteClass (memory.utf8 helper.m_inputUTF8) = .lowPart) :
    (readTo buf memory helper).1 = false := by
  have pass : ((readsTo buf helper).fromUTF8 memory 1 (-1)).convertCharacter
      memory.utf8 false = .error
        { (readsTo buf helper).fromUTF8 memory 1 (-1) with
          inputUTF8 := helper.m_inputUTF8 + 1 } := by
    unfold FromUTF8.convertCharacter
    dsimp only
    have same : byteClass (memory.utf8
        ((readsTo buf helper).fromUTF8 memory 1 (-1)).inputUTF8) =
          .lowPart := lowPart
    rw [same]
    rfl
  rw [readTo, ConvertFromUTF8, FromUTF8.convert_exit _ pass]
  exact ⟨Int.one_pos, by rw [fromUTF8_iMaxBytes]; decide⟩

/-- Inside a character nothing is found. -/
theorem round_inCharacter
    (inCharacter : InCharacter pString wanted state)
    (some : wanted.compared ≠ .string []) :
    wanted.round charIsSigned last pString state = .done (-1) := by
  cases wanted with
  | chars pChars =>
      change charRound charIsSigned last pChars state = _
      unfold charRound
      dsimp only
      rw [read_fails_lowPart bufInput inCharacter.lowPart]
      rfl
  | string characters =>
      have ended : compareString pString (utf8Of characters).length
          state.memory state.inputIterator = .some .finished := by
        cases characters with
        | nil => exact absurd rfl some
        | cons character others =>
            have small : character.toNat < 0x10000 := by
              by_contra large
              apply some
              rw [Wanted.compared, comparedPart,
                List.takeWhile_cons_of_neg (by simpa using large)]
            have search : AtCursor state.memory pString []
                (character :: others) (inputAt pString) := inCharacter.search
            obtain ⟨memory', searchString', searchRead, -, -, same, -⟩ :=
              search.read bufSearch small
            apply loop_succ_done
            unfold compareRound
            dsimp only
            rw [searchRead]
            dsimp only
            rw [read_fails_lowPart bufInput
              (by rw [same]; exact inCharacter.lowPart)]
            rfl
      change stringRound charIsSigned last pString _ state = _
      unfold stringRound
      rw [ended]

/-- The bytes of a character behind its first one. -/
theorem lowPart_at
    {memory : TextMemory}
    {helper : CLR_RT_UnicodeHelper}
    {character : Char}
    {ch : UInt8}
    {low : List UInt8}
    {place : Nat}
    (at_ : AtCursor memory 0 before (character :: after) helper)
    (bytes : String.utf8EncodeChar character = ch :: low)
    (lowParts : ∀ byte ∈ low, byteClass byte = .lowPart)
    (behind : helper.m_inputUTF8 < place)
    (inside : place ≤ helper.m_inputUTF8 + low.length) :
    byteClass (memory.utf8 place) = .lowPart := by
  have held := at_.heldAfter
  rw [utf8Of_cons, bytes, List.append_assoc, List.cons_append, holds_cons,
    holds_append] at held
  exact (forall_mem_iff_of_holds held.2.1).mp lowParts place behind (by omega)

/-- One byte back from a character. -/
theorem back_byte
    {memory : TextMemory}
    {helper helper' : CLR_RT_UnicodeHelper}
    (at_ : AtCursor memory 0 before after helper)
    (back : helper'.m_inputUTF8 + 1 = helper.m_inputUTF8) :
    byteClass (memory.utf8 helper'.m_inputUTF8) = .lowPart ∨
      ∃ earlier previous, before = earlier ++ [previous] ∧
        previous.toNat < 0x80 ∧
        AtCursor memory 0 earlier (previous :: after) helper' := by
  have cursor := at_.cursor
  rcases List.eq_nil_or_concat before with rfl | ⟨earlier, previous, rfl⟩
  · have empty : (utf8Of []).length = 0 := rfl
    omega
  · rw [List.concat_eq_append] at at_ cursor ⊢
    rw [utf8Of_concat, List.length_append] at cursor
    rcases lowParts_of_character previous with
      ascii | ⟨ch, low, bytes, some, lowParts⟩
    · refine Or.inr ⟨earlier, previous, rfl, ascii, at_.backward ?_⟩
      rw [utf8Of_length_ascii (List.forall_mem_singleton.mpr ascii)]
      exact back
    · have start : AtCursor memory 0 earlier ([previous] ++ after)
          { helper with m_inputUTF8 := (utf8Of earlier).length } := by
        apply at_.backward
        rw [utf8Of_singleton]
        exact (Nat.zero_add _ ▸ cursor).symm
      have positive := List.length_pos_iff.mpr some
      rw [bytes, List.length_cons] at cursor
      apply Or.inl
      apply lowPart_at start bytes lowParts
      · change (utf8Of earlier).length < _
        omega
      · change _ ≤ (utf8Of earlier).length + _
        omega

/-- What a step back leaves when there is one. -/
theorem next_of_back
    {memory : TextMemory}
    {helper : CLR_RT_UnicodeHelper}
    {index : Int}
    {state' : IndexOfState}
    (n : Nat)
    (some : 0 < n)
    (next : (let back := helper.MoveBackwardInUTF8 charIsSigned memory 0 n
      if back.1 then LoopStep.next (IndexOfState.mk index memory back.2)
      else .done (-1)) = .next state') :
    n ≤ helper.m_inputUTF8 ∧
      state' = ⟨index, memory,
        { helper with m_inputUTF8 := helper.m_inputUTF8 - n }⟩ := by
  by_cases inside : n ≤ helper.m_inputUTF8
  · rw [back_eq charIsSigned some inside] at next
    cases next
    exact ⟨inside, rfl⟩
  · have fails : (helper.MoveBackwardInUTF8 charIsSigned memory 0 n).1 =
        false := back_fails charIsSigned (Nat.not_le.mp inside)
    dsimp only at next
    rw [fails] at next
    cases next

/-- Where a step back may lead. -/
def MayStandAt
    (pString : Nat)
    (wanted : Wanted)
    (before after : List Char)
    (state : IndexOfState) : Prop :=
  InCharacter pString wanted state ∨
    ∃ before' after', before' ++ after' = before ++ after ∧
      AtPosition pString wanted before' after' state ∧
      (utf16Of before').length ≤ (utf16Of before).length ∧
      (utf16Of before).length ≤ (utf16Of before').length + 1

theorem mayStandAt_back
    (input : AtCursor state.memory 0 before after
      { state.inputIterator with
        m_inputUTF8 := state.inputIterator.m_inputUTF8 + 1 })
    (search : wanted.Held state.memory pString) :
    MayStandAt pString wanted before after state := by
  have back := @back_byte _ _ _ _ state.inputIterator input rfl
  rcases back with lowPart | ⟨earlier, previous, rfl, ascii, position⟩
  · exact Or.inl ⟨lowPart, search⟩
  · refine Or.inr ⟨earlier, previous :: after, ?_, ⟨position, search⟩, ?_, ?_⟩
    · rw [List.append_assoc]
      rfl
    · rw [utf16Of_append, List.length_append]
      exact Nat.le_add_right _ _
    · rw [utf16Of_append, utf16Of_cons_small (by omega), List.length_append]
      exact Nat.le_refl _

/-- Backward a round that goes on does so at the same character, at the one
before it, or inside of one. -/
theorem round_back
    {state' : IndexOfState}
    (at_ : AtPosition pString wanted before after state)
    (goesOn : wanted.round charIsSigned true pString state = .next state') :
    MayStandAt pString wanted before after state' := by
  cases wanted with
  | chars pChars =>
      by_cases stops : ∀ character ∈ after.head?, 0x10000 ≤ character.toNat
      · cases (charRound_fails at_ stops).symm.trans goesOn
      cases after with
      | nil => exact absurd (by simp) stops
      | cons character rest =>
          have small : character.toNat < 0x10000 := by simpa using stops
          obtain ⟨memory', helper', same, input, round⟩ :=
            charRound_read at_ small
          have next := round.symm.trans goesOn
          rw [if_pos rfl] at next
          split at next
          · cases next
          obtain ⟨inside, rfl⟩ := next_of_back 2 Nat.two_pos next
          have cursor := input.cursor
          rw [utf8Of_concat, List.length_append] at cursor
          rcases lowParts_of_character character with
            ascii | ⟨ch, low, bytes, some, lowParts⟩
          · rw [utf8EncodeChar_one ascii] at cursor
            refine mayStandAt_back (input.backward ?_) trivial
            rw [utf8Of_singleton, utf8EncodeChar_one ascii]
            change helper'.m_inputUTF8 - 2 + 1 + 1 = _
            omega
          · have positive := List.length_pos_iff.mpr some
            rw [bytes, List.length_cons] at cursor
            by_cases two : low.length = 1
            · refine Or.inr ⟨before, character :: rest, rfl,
                ⟨input.backward ?_, trivial⟩, Nat.le_refl _, Nat.le_succ _⟩
              rw [utf8Of_singleton, bytes, List.length_cons, two]
              exact Nat.sub_add_cancel inside
            · have start : AtCursor memory' 0 before (character :: rest)
                  { helper' with m_inputUTF8 := (utf8Of before).length } := by
                apply input.backward
                rw [utf8Of_singleton, bytes, List.length_cons]
                exact (Nat.zero_add _ ▸ cursor).symm
              refine Or.inl ⟨lowPart_at start bytes lowParts ?_ ?_, trivial⟩
              · change (utf8Of before).length < helper'.m_inputUTF8 - 2
                omega
              · change helper'.m_inputUTF8 - 2 ≤ (utf8Of before).length + _
                omega
  | string characters =>
      have round : stringRound charIsSigned true pString
          (utf8Of characters).length state = _ := stringRound_eq at_
      cases comparison : compareCharacters (comparedPart characters) after with
      | found =>
          rw [comparison] at round
          cases round.symm.trans goesOn
      | finished =>
          rw [comparison] at round
          cases round.symm.trans goesOn
      | different =>
          rw [comparison] at round
          have next := round.symm.trans goesOn
          dsimp only at next
          rw [if_pos rfl] at next
          obtain ⟨inside, rfl⟩ := next_of_back 1 Nat.one_pos next
          refine mayStandAt_back ⟨at_.input.notZero, at_.input.held, ?_⟩ ?_
          · refine Eq.trans ?_ at_.input.cursor
            exact Nat.sub_add_cancel inside
          · exact at_.search

end Rounds

end Text

end NanoClr
