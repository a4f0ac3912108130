import NanoClr.Text.SearchRounds

/-!
# The positions of a search

The loop of `IndexOf` delivers the first position of an occurrence that it
comes to, forward or backward, and otherwise nothing.
-/

namespace NanoClr

namespace Text

open Arrays CLR_RT_UnicodeHelper

section Positions

variable
  {charIsSigned : Bool}
  {pString count : Nat}
  {wanted : Wanted}
  {before after : List Char}
  {state : IndexOfState}

/-- The units of a text behind a position. -/
theorem drop_utf16Of
    {text : List Char}
    {index : Nat}
    (whole : before ++ after = text)
    (position : (utf16Of before).length = index) :
    (utf16Of text).drop index = utf16Of after := by
  rw [← whole, utf16Of_append, ← position, List.drop_left]

theorem length_le_of_occurs
    {rest : List UInt16}
    (occurs : wanted.Occurs rest) :
    wanted.length ≤ rest.length := by
  cases wanted with
  | chars pChars =>
      obtain ⟨unit, -, isHead⟩ := occurs
      cases rest with
      | nil => cases isHead
      | cons first rest => exact Nat.succ_pos _
  | string characters => exact List.IsPrefix.length_le occurs

/-- The loop stands at a position of the text, and counts right. -/
def StandsAt
    (pString : Nat)
    (wanted : Wanted)
    (text : List Char)
    (index : Nat)
    (state : IndexOfState) : Prop :=
  state.startIndex = index ∧
    ∃ before after, before ++ after = text ∧
      (utf16Of before).length = index ∧
      AtPosition pString wanted before after state

/-! ## Forward -/

theorem loop_forward_found
    {text : List Char}
    {index place : Nat}
    (stands : StandsAt pString wanted text index state)
    (from_ : index ≤ place)
    (inside : place < index + count)
    (occurs : wanted.compared.Occurs ((utf16Of text).drop place))
    (first : ∀ earlier, index ≤ earlier → earlier < place →
      ¬ wanted.compared.Occurs ((utf16Of text).drop earlier))
    (notCut : ∀ earlier, index ≤ earlier → earlier ≤ place →
      ¬ wanted.compared.CutOff ((utf16Of text).drop earlier)) :
    loop (wanted.round charIsSigned false pString) count state =
      some (place : Int) := by
  have last := length_le_of_occurs occurs
  rw [List.length_drop] at last
  have below : place - index < count := by omega
  apply loop_reaches (fun steps => StandsAt pString wanted text (index + steps))
    below
  · rintro round fewer state' ⟨counted, before, after, whole, here, at_⟩
    have units := drop_utf16Of whole here
    have noOccurrence := first (index + round) (by omega) (by omega)
    have noSurrogate := notCut (index + round) (by omega) (by omega)
    rw [units] at noOccurrence noSurrogate
    have long : wanted.compared.length ≤ (utf16Of after).length := by
      rw [← units, List.length_drop]
      omega
    obtain ⟨later, goesOn⟩ := @round_goesForward charIsSigned _ _ _ _ _ at_
      noOccurrence noSurrogate long
    obtain ⟨character, rest, rfl, small, counted', at_'⟩ :=
      round_forward at_ goesOn
    refine ⟨later, goesOn, ?_, _, _, ?_, ?_, at_'⟩
    · rw [counted', counted]
      rfl
    · rw [List.append_assoc]
      exact whole
    · rw [utf16Of_append, utf16Of_cons_small small, List.length_append, here]
      rfl
  · rintro state' ⟨counted, before, after, whole, here, at_⟩
    have units := drop_utf16Of whole here
    have isPlace : index + (place - index) = place := by omega
    rw [isPlace] at units counted
    rw [round_found at_ (units ▸ occurs)
      (units ▸ notCut place from_ (Nat.le_refl _)), counted]
  · exact stands

theorem loop_forward_none
    {text : List Char}
    {index : Nat}
    {result : Int}
    (stands : StandsAt pString wanted text index state)
    (none_ : ∀ place, index ≤ place → place < index + count →
      ¬ wanted.compared.Occurs ((utf16Of text).drop place))
    (delivers : loop (wanted.round charIsSigned false pString) count state =
      some result) :
    result = -1 := by
  refine loop_delivers
    (fun steps => StandsAt pString wanted text (index + steps))
    (fun result => result = -1) ?_ ?_ stands delivers
  · rintro round state' later - ⟨counted, before, after, whole, here, at_⟩
      goesOn
    obtain ⟨character, rest, rfl, small, counted', at_'⟩ :=
      round_forward at_ goesOn
    refine ⟨?_, _, _, ?_, ?_, at_'⟩
    · rw [counted', counted]
      rfl
    · rw [List.append_assoc]
      exact whole
    · rw [utf16Of_append, utf16Of_cons_small small, List.length_append, here]
      rfl
  · rintro round state' result fewer ⟨-, before, after, whole, here, at_⟩ done
    refine round_done at_ ?_ done
    rw [← drop_utf16Of whole here]
    exact none_ (index + round) (by omega) (by omega)

/-! ## Backward -/

/-- The first unit, if there is one, is ASCII. -/
def AsciiHead (rest : List UInt16) : Prop :=
  ∀ unit ∈ rest.head?, unit.toNat < 0x80

theorem head_ascii
    {character : Char}
    {rest : List Char}
    (ascii : AsciiHead (utf16Of (character :: rest))) :
    character.toNat < 0x80 := by
  by_cases large : 0x10000 ≤ character.toNat
  · obtain ⟨high, low, units, ⟨isHigh, -⟩, -⟩ := utf16Of_cons_large large
    rw [units] at ascii
    have small := ascii high rfl
    omega
  · have small := Nat.not_le.mp large
    rw [utf16Of_cons_small small] at ascii
    rw [← unitOf_toNat small]
    exact ascii _ rfl

/-- The character before a position whose last unit is ASCII. -/
theorem last_ascii
    {earlier text : List Char}
    {previous : Char}
    {index : Nat}
    (whole : earlier ++ [previous] ++ after = text)
    (position : (utf16Of (earlier ++ [previous])).length = index + 1)
    (ascii : AsciiHead ((utf16Of text).drop index)) :
    previous.toNat < 0x80 := by
  rw [List.append_assoc] at whole
  rw [utf16Of_append, List.length_append] at position
  by_cases large : 0x10000 ≤ previous.toNat
  · obtain ⟨high, low, units, -, ⟨isLow, -⟩⟩ :=
      @utf16Of_cons_large previous ([] : List Char) large
    obtain ⟨high', low', units', -, ⟨isLow', -⟩⟩ :=
      @utf16Of_cons_large previous after large
    rw [units] at position
    have here : (utf16Of earlier).length + 1 = index :=
      Nat.succ.inj position
    rw [← here, ← List.drop_drop, drop_utf16Of whole rfl] at ascii
    have behind : utf16Of ([previous] ++ after) = high' :: low' :: _ := units'
    rw [behind] at ascii
    have small := ascii low' rfl
    omega
  · rw [utf16Of_cons_small (Nat.not_le.mp large)] at position
    have here : (utf16Of earlier).length = index := Nat.succ.inj position
    rw [drop_utf16Of whole here] at ascii
    exact head_ascii ascii

theorem loop_backward_found
    {text : List Char}
    {index place : Nat}
    (stands : StandsAt pString wanted text index state)
    (from_ : place ≤ index)
    (inside : index < place + count)
    (fits : index + wanted.compared.length ≤ (utf16Of text).length)
    (occurs : wanted.compared.Occurs ((utf16Of text).drop place))
    (last : ∀ later, place < later → later ≤ index →
      ¬ wanted.compared.Occurs ((utf16Of text).drop later))
    (notCut : ∀ later, place ≤ later → later ≤ index →
      ¬ wanted.compared.CutOff ((utf16Of text).drop later))
    (ascii : ∀ later, place ≤ later → later < index →
      AsciiHead ((utf16Of text).drop later))
    (asciiStart : ∀ pChars, wanted = .chars pChars → place < index →
      AsciiHead ((utf16Of text).drop index)) :
    loop (wanted.round charIsSigned true pString) count state =
      some (place : Int) := by
  have below : index - place < count := by omega
  apply loop_reaches (fun steps => StandsAt pString wanted text (index - steps))
    below
  · rintro round fewer state' ⟨counted, before, after, whole, here, at_⟩
    have units := drop_utf16Of whole here
    have noOccurrence := last (index - round) (by omega) (by omega)
    have noSurrogate := notCut (index - round) (by omega) (by omega)
    have long : wanted.compared.length ≤ (utf16Of after).length := by
      rw [← units, List.length_drop]
      omega
    have asciiHere : ∀ pChars, wanted = .chars pChars →
        ∀ character ∈ after.head?, character.toNat < 0x80 := by
      intro pChars isChars character isHead
      have head : AsciiHead ((utf16Of text).drop (index - round)) := by
        cases round with
        | zero => exact asciiStart pChars isChars (by omega)
        | succ round => exact ascii _ (by omega) (by omega)
      rw [units] at head
      cases after with
      | nil => cases isHead
      | cons first rest =>
          cases isHead
          exact head_ascii head
    rw [units] at noOccurrence noSurrogate
    rcases List.eq_nil_or_concat before with rfl | ⟨earlier, previous, rfl⟩
    · have none_ : (utf16Of []).length = 0 := rfl
      omega
    · rw [List.concat_eq_append] at at_ whole here
      have position : (utf16Of (earlier ++ [previous])).length =
          index - (round + 1) + 1 := by omega
      have asciiPrevious := last_ascii whole position
        (ascii _ (by omega) (by omega))
      obtain ⟨state'', goesOn, counted', at_'⟩ :=
        @round_goesBack charIsSigned _ _ _ _ _ _ at_ noOccurrence noSurrogate
          long asciiPrevious asciiHere
      refine ⟨state'', goesOn, ?_, _, _, ?_, ?_, at_'⟩
      · rw [counted', counted]
        omega
      · rw [← whole, List.append_assoc]
        rfl
      · have small : previous.toNat < 0x10000 := by omega
        rw [utf16Of_append, utf16Of_cons_small small, List.length_append]
          at position
        exact Nat.succ.inj position
  · rintro state' ⟨counted, before, after, whole, here, at_⟩
    have units := drop_utf16Of whole here
    have isPlace : index - (index - place) = place := by omega
    rw [isPlace] at units counted
    rw [round_found at_ (units ▸ occurs)
      (units ▸ notCut place (Nat.le_refl _) from_), counted]
  · exact stands

/-- The loop stands inside a character or at a position that is not further
back than the rounds have gone. -/
def HasGoneBack
    (pString : Nat)
    (wanted : Wanted)
    (text : List Char)
    (index steps : Nat)
    (state : IndexOfState) : Prop :=
  InCharacter pString wanted state ∨
    ∃ before after, before ++ after = text ∧
      AtPosition pString wanted before after state ∧
      (utf16Of before).length ≤ index ∧
      index ≤ (utf16Of before).length + steps

theorem loop_backward_none
    {text : List Char}
    {index : Nat}
    {result : Int}
    (stands : StandsAt pString wanted text index state)
    (some_ : wanted.compared ≠ .string [])
    (none_ : ∀ place, place ≤ index → index < place + count →
      ¬ wanted.compared.Occurs ((utf16Of text).drop place))
    (delivers : loop (wanted.round charIsSigned true pString) count state =
      some result) :
    result = -1 := by
  refine loop_delivers (HasGoneBack pString wanted text index)
    (fun result => result = -1) ?_ ?_ ?_ delivers
  · rintro round state' later - (inCharacter | ⟨before, after, whole, at_,
      notBehind, near⟩) goesOn
    · cases (round_inCharacter inCharacter some_).symm.trans goesOn
    · rcases round_back at_ goesOn with inCharacter | ⟨before', after', same,
        at_', notBehind', near'⟩
      · exact .inl inCharacter
      · exact .inr ⟨before', after', same.trans whole, at_', by omega,
          by omega⟩
  · rintro round state' result fewer (inCharacter | ⟨before, after, whole, at_,
      notBehind, near⟩) done
    · have fails := (round_inCharacter inCharacter some_).symm.trans done
      exact (LoopStep.done.inj fails).symm
    · refine round_done at_ ?_ done
      rw [← drop_utf16Of whole rfl]
      exact none_ _ notBehind (by omega)
  · obtain ⟨-, before, after, whole, here, at_⟩ := stands
    exact .inr ⟨before, after, whole, at_, by omega, by omega⟩

end Positions

end Text

end NanoClr
