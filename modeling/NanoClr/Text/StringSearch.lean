import NanoClr.Text.SearchPositions
import Mathlib.Order.Lattice.Nat

/-!
# What a search delivers

A search looks at a window of a text.  Where it can read the characters that
it comes to, `IndexOf` delivers the first occurrence in the window, and the
last one in the `Last` forms.
-/

namespace NanoClr

namespace Text

open Arrays CLR_RT_UnicodeHelper

/-- A search in a text of characters. -/
structure Search where
  text : List Char
  wanted : Wanted
  argument : SearchArgument
  startIndex : Option Int
  count : Option Int
  last : Bool
  asks : argument.sought = some wanted.sought
  textNotZero : ∀ character ∈ text, character.toNat ≠ 0
  wantedNotZero : ∀ characters, wanted = .string characters →
    ∀ character ∈ characters, character.toNat ≠ 0
  wantedNotEmpty : wanted ≠ .string []
  textShort : (utf16Of text).length < 2 ^ 31
  wantedShort : wanted.length < 2 ^ 31

namespace Search

variable (search : Search)

/-- The call of `IndexOf` for a search. -/
def call : IndexOfCall where
  szText := some (utf8Of search.text)
  argument := search.argument
  startIndex := search.startIndex
  count := search.count
  last := search.last

/-! ## The window -/

/-- The characters of the text. -/
def units : List UInt16 := utf16Of search.text

/-- The length of the text. -/
def inputLen : Int := search.units.length

/-- The length of what is sought. -/
def searchLen : Int := search.wanted.length

/-- Where the window begins, and in the `Last` forms ends. -/
def start : Int :=
  search.startIndex.getD (if search.last then search.inputLen - 1 else 0)

/-- The units of the window. -/
def width : Int :=
  search.count.getD
    (if search.last then search.start + 1 else search.inputLen - search.start)

/-- The places of the window where what is wanted lies inside of it. -/
def Occurrences : Set Nat :=
  {place | search.wanted.Occurs (search.units.drop place) ∧
    if search.last then
      search.start < place + search.width ∧
        place + search.searchLen ≤ search.start + 1
    else
      search.start ≤ place ∧
        place + search.searchLen ≤ search.start + search.width}

/-- The one of some places that a search comes to first. -/
def ComesFirst (places : Set Nat) (place : Nat) : Prop :=
  if search.last then IsGreatest places place else IsLeast places place

/-- The start that is given, or the window of a search forward, is not in the
text. -/
def OutOfRange : Prop :=
  (search.startIndex ≠ none ∧
      (search.start < 0 ∨ search.inputLen < search.start)) ∨
    (search.last = false ∧ search.inputLen < search.start + search.width)

/-- The window of a search backward begins before the text. -/
def Exceeds : Prop :=
  search.last = true ∧ search.start + 1 < search.width

/-- A search raises where its window is not in the text, and otherwise
delivers the occurrence that it comes to first. -/
structure Delivers (outcome : CallResult Int) : Prop where
  raises : search.OutOfRange → outcome = .failed .CLR_E_OUT_OF_RANGE
  exits : ¬ search.OutOfRange → search.Exceeds → outcome = .S_OK (-1)
  finds : ¬ search.OutOfRange → ¬ search.Exceeds →
    (search.Occurrences = ∅ ∧ outcome = .S_OK (-1)) ∨
      ∃ place : Nat, search.ComesFirst search.Occurrences place ∧
        outcome = .S_OK place

/-! ## The places that are tried -/

/-- The place that is tried first. -/
def firstPlace : Int :=
  if search.last then search.start - (search.searchLen - 1) else search.start

/-- How many places are tried at most. -/
def tries : Int :=
  if search.last then search.count.getD (search.firstPlace + 1)
  else search.width - (search.searchLen - 1)

/-- The places that are tried where what is compared lies. -/
def Matches : Set Nat :=
  {place | search.wanted.compared.Occurs (search.units.drop place) ∧
    if search.last then
      place ≤ search.firstPlace ∧ search.firstPlace < place + search.tries
    else
      search.firstPlace ≤ place ∧ place < search.firstPlace + search.tries}

/-- A place up to the one that is tried first. -/
def OnTheWay (place between : Nat) : Prop :=
  if search.last then place ≤ between ∧ between ≤ search.firstPlace
  else search.firstPlace ≤ between ∧ between ≤ place

/-- The characters on the way to a place are read one by one. -/
structure Readable (place : Nat) : Prop where
  notCut : ∀ between, search.OnTheWay place between →
    ¬ search.wanted.compared.CutOff (search.units.drop between)
  ascii : search.last = true → ∀ between, search.OnTheWay place between →
    between < search.firstPlace → AsciiHead (search.units.drop between)
  asciiStart : search.last = true →
    ∀ pChars, search.wanted = .chars pChars → place < search.firstPlace →
      AsciiHead (search.units.drop search.firstPlace.toNat)

/-- A character begins at the place that is tried first. -/
def AtCharacter : Prop :=
  ∃ before after, before ++ after = search.text ∧
    ((utf16Of before).length : Int) = search.firstPlace

/-- The places that are tried serve for the window. -/
structure TriesWindow : Prop where
  inside : search.last = true → search.start < search.inputLen
  atCharacter : 0 ≤ search.firstPlace → search.AtCharacter
  noneLost : search.last = true → search.firstPlace + 1 < search.tries →
    search.Occurrences = ∅
  found : (search.last = true → search.tries ≤ search.firstPlace + 1) →
    ∀ place, search.ComesFirst search.Matches place →
      place ∈ search.Occurrences ∧ search.Readable place

/-- The count says how far the window reaches. -/
def Counts : Prop :=
  0 ≤ search.width ∧
    (search.last = false →
      search.start + search.width ≤ search.inputLen ∨
        (search.inputLen < search.start + search.tries ∧
          search.start + search.tries < 2 ^ 31))

/-- No bound and no character of the search is mistaken. -/
structure Serves : Prop where
  startOfLast : search.last = true → search.startIndex = none →
    search.text ≠ []
  counts : 0 ≤ search.start → search.start ≤ search.inputLen → search.Counts
  triesWindow : ¬ search.OutOfRange → ¬ search.Exceeds → search.TriesWindow

/-! ## The memory of the call -/

/-- The memory of the call. -/
def memory : TextMemory :=
  callMemory (utf8Of search.text) search.wanted.sought

/-- Where the search string begins. -/
def pString : Nat := (utf8Of search.text).length + 1

theorem holds_text :
    Holds search.memory.utf8 0 (utf8Of search.text ++ [0]) := by
  rw [memory]
  cases search.wanted with
  | chars pChars => exact holds_textOf _
  | string characters =>
      have held := holds_textOf (utf8Of search.text ++ 0 :: utf8Of characters)
      rw [List.append_assoc, holds_append, List.cons_append, holds_cons]
        at held
      exact holds_append.mpr ⟨held.1, holds_cons.mpr ⟨held.2.1, holds_nil⟩⟩

theorem holds_wanted
    {characters : List Char}
    (isString : search.wanted = .string characters) :
    Holds search.memory.utf8 search.pString (utf8Of characters ++ [0]) := by
  rw [memory, isString]
  have held := holds_textOf (utf8Of search.text ++ 0 :: utf8Of characters)
  rw [List.append_assoc, holds_append, List.cons_append, holds_cons] at held
  rw [Nat.zero_add] at held
  exact held.2.2

theorem inputLen_eq :
    (inputAt 0).CountNumberOfCharacters ((utf8Of search.text).length + 1)
      search.memory (-1) = some search.inputLen :=
  count_utf8Of search.textNotZero search.holds_text (Nat.lt_succ_self _)

theorem searchLen_eq :
    search.wanted.sought.searchLen (utf8Of search.text) =
      some search.searchLen := by
  rw [searchLen]
  cases isString : search.wanted with
  | chars pChars => rfl
  | string characters =>
      have held := search.holds_wanted isString
      rw [memory, isString] at held
      exact count_utf8Of (search.wantedNotZero characters isString) held
        (Nat.lt_succ_self _)

theorem held : search.wanted.Held search.memory search.pString := by
  cases isString : search.wanted with
  | chars pChars => exact trivial
  | string characters =>
      exact ⟨search.wantedNotZero characters isString,
        search.holds_wanted isString, rfl⟩

/-- The move to the place that is tried first. -/
theorem moves
    (atCharacter : search.AtCharacter) :
    ∃ memory' helper',
      (inputAt 0).ConvertFromUTF8 search.memory search.firstPlace true (-1) =
          (true, memory', helper') ∧
        StandsAt search.pString search.wanted search.text
          search.firstPlace.toNat ⟨search.firstPlace, memory', helper'⟩ := by
  obtain ⟨before, after, whole, here⟩ := atCharacter
  have start : AtCursor search.memory 0 [] (before ++ after) (inputAt 0) :=
    ⟨whole ▸ search.textNotZero, whole ▸ search.holds_text, rfl⟩
  rw [← here]
  exact ⟨_, _, start.move, rfl, before, after, whole, rfl,
    start.forward rfl rfl, search.held⟩

theorem indexOf_eq (charIsSigned : Bool) :
    IndexOf charIsSigned search.call =
      searchFrom charIsSigned search.call (utf8Of search.text)
        search.wanted.sought search.searchLen search.inputLen := by
  have input := search.inputLen_eq
  rw [memory] at input
  unfold IndexOf
  rw [call, search.asks]
  dsimp only [Option.getD]
  rw [search.searchLen_eq, input]

/-! ## The course of the call -/

theorem toInt32_of_fits
    {value : Int}
    (least : -2 ^ 31 ≤ value)
    (below : value < 2 ^ 31) :
    toInt32 value = value := by
  unfold toInt32
  omega

variable {search}

theorem searchFrom_invalid
    {charIsSigned : Bool}
    (invalid : search.start < 0 ∨ search.inputLen < search.start) :
    searchFrom charIsSigned search.call (utf8Of search.text)
        search.wanted.sought search.searchLen search.inputLen =
      .failed .CLR_E_OUT_OF_RANGE :=
  if_pos invalid

theorem utf16Of_ne_nil
    {characters : List Char}
    (some : characters ≠ []) :
    utf16Of characters ≠ [] := by
  obtain ⟨character, others, rfl⟩ := List.exists_cons_of_ne_nil some
  by_cases large : 0x10000 ≤ character.toNat
  · obtain ⟨high, low, units, -⟩ := @utf16Of_cons_large character others large
    rw [units]
    exact List.cons_ne_nil _ _
  · rw [utf16Of_cons_small (Nat.not_le.mp large)]
    exact List.cons_ne_nil _ _

theorem one_le_searchLen : 1 ≤ search.searchLen := by
  have notEmpty := search.wantedNotEmpty
  rw [searchLen]
  cases isString : search.wanted with
  | chars pChars => exact Int.le_refl 1
  | string characters =>
      have some : characters ≠ [] := by
        rintro rfl
        exact notEmpty isString
      exact Int.ofNat_le.mpr (List.length_pos_iff.mpr (utf16Of_ne_nil some))

/-- One character is looked for, or a string. -/
theorem isString_or_one :
    search.wanted.sought.isString = true ∨
      (search.wanted.sought.isString = false ∧ search.searchLen = 1) := by
  rw [searchLen]
  cases search.wanted with
  | chars pChars => exact .inr ⟨rfl, rfl⟩
  | string characters => exact .inl rfl

theorem firstPlace_eq :
    search.firstPlace =
      if (search.wanted.sought.isString && search.last) = true then
        search.start - (search.searchLen - 1)
      else search.start := by
  rw [firstPlace]
  rcases @isString_or_one search with isString | ⟨isString, one⟩
  · rw [isString, Bool.true_and]
  · rw [isString, one, Bool.false_and, if_neg Bool.false_ne_true]
    split
    · exact Int.sub_zero _
    · rfl

/-- The count, which counts fewer places forward the longer the search string
is. -/
theorem tries_eq
    (fits : search.last = false →
      -2 ^ 31 ≤ search.tries ∧ search.tries < 2 ^ 31) :
    search.tries =
      if search.wanted.sought.isString = true ∧ ¬ search.last = true then
        toInt32 (search.count.getD (if search.last = true then
          search.firstPlace + 1 else search.inputLen - search.firstPlace) -
            (search.searchLen - 1))
      else
        search.count.getD (if search.last = true then search.firstPlace + 1
          else search.inputLen - search.firstPlace) := by
  rw [tries, firstPlace, width] at *
  cases isLast : search.last with
  | true => simp
  | false =>
      rw [isLast] at fits
      obtain ⟨least, below⟩ := fits rfl
      simp only [Bool.false_eq_true, if_false] at least below ⊢
      rcases @isString_or_one search with isString | ⟨isString, one⟩
      · rw [isString, toInt32_of_fits least below]
        simp
      · rw [isString, one]
        simp

/-- The call behind the check of the start. -/
theorem searchFrom_valid
    {charIsSigned : Bool}
    (notNegative : 0 ≤ search.start)
    (inText : search.start ≤ search.inputLen)
    (counts : search.Counts) :
    searchFrom charIsSigned search.call (utf8Of search.text)
        search.wanted.sought search.searchLen search.inputLen =
      if search.last = true ∧ search.firstPlace < 0 then .S_OK (-1)
      else if search.last = true ∧ search.firstPlace + 1 < search.tries then
        .S_OK (-1)
      else if search.last = false ∧
          search.inputLen < search.firstPlace + search.tries then
        .failed .CLR_E_OUT_OF_RANGE
      else
        let moved := (inputAt 0).ConvertFromUTF8 search.memory
          search.firstPlace true (-1)
        if moved.1 then
          .S_OK (tryPositions charIsSigned search.last search.wanted.sought
            search.pString search.tries
            ⟨search.firstPlace, moved.2.1, moved.2.2⟩)
        else .S_OK (-1) := by
  have some := @one_le_searchLen search
  have short : search.searchLen < 2 ^ 31 := by
    have short := search.wantedShort
    rw [searchLen]
    omega
  have textShort : search.inputLen < 2 ^ 31 := by
    have short := search.textShort
    rw [inputLen, units]
    omega
  obtain ⟨some', reaches⟩ := counts
  have valid : ¬ (search.start < 0 ∨ search.inputLen < search.start) := by
    omega
  have isFirst := @firstPlace_eq search
  have fits : search.last = false →
      -2 ^ 31 ≤ search.tries ∧ search.tries < 2 ^ 31 := by
    intro isForward
    have tried : search.tries = search.width - (search.searchLen - 1) := by
      rw [tries, isForward]
      rfl
    have far := reaches isForward
    omega
  have isTries := tries_eq fits
  have isStart : search.call.startIndex.getD
      (if search.call.last = true then search.inputLen - 1 else 0) =
        search.start := rfl
  have isLast : search.call.last = search.last := rfl
  have isCount : search.call.count = search.count := rfl
  unfold searchFrom
  rw [isStart]
  dsimp only
  rw [if_neg valid, isLast, isCount, ← isFirst, ← isTries]
  have before : ((search.wanted.sought.isString && search.last) = true ∧
      (search.firstPlace < 0 ∨ search.inputLen < search.firstPlace)) ↔
        search.last = true ∧ search.firstPlace < 0 := by
    rw [isFirst]
    cases isString : search.wanted.sought.isString <;>
      cases search.last <;> simp <;> omega
  have behind : (¬ search.last = true ∧
      search.inputLen < toInt32 (search.firstPlace + search.tries)) ↔
        search.last = false ∧
          search.inputLen < search.firstPlace + search.tries := by
    rw [Bool.not_eq_true]
    apply and_congr_right
    intro isForward
    have first : search.firstPlace = search.start := by
      rw [firstPlace, isForward]
      rfl
    have tried : search.tries = search.width - (search.searchLen - 1) := by
      rw [tries, isForward]
      rfl
    have far := reaches isForward
    rw [toInt32_of_fits (by omega) (by omega)]
  simp only [before, behind]
  rfl

/-! ## The result -/

theorem tryPositions_eq
    {charIsSigned : Bool}
    {state : IndexOfState} :
    tryPositions charIsSigned search.last search.wanted.sought search.pString
        search.tries state =
      (loop (search.wanted.round charIsSigned search.last search.pString)
        search.tries.toNat state).getD (-1) := by
  unfold tryPositions Wanted.round
  rfl

theorem mem_matches_forward
    {place : Nat}
    (isForward : search.last = false) :
    place ∈ search.Matches ↔
      search.wanted.compared.Occurs (search.units.drop place) ∧
        search.firstPlace ≤ place ∧
        place < search.firstPlace + search.tries := by
  rw [Matches, isForward]
  rfl

theorem mem_matches_backward
    {place : Nat}
    (isLast : search.last = true) :
    place ∈ search.Matches ↔
      search.wanted.compared.Occurs (search.units.drop place) ∧
        place ≤ search.firstPlace ∧
        search.firstPlace < place + search.tries := by
  rw [Matches, isLast]
  rfl

theorem compared_length_le (wanted : Wanted) :
    wanted.compared.length ≤ wanted.length := by
  cases wanted with
  | chars pChars => exact Nat.le_refl 1
  | string characters =>
      have part : comparedPart characters ++ characters.dropWhile _ =
          characters := List.takeWhile_append_dropWhile
      have whole := congrArg (fun text => (utf16Of text).length) part
      rw [utf16Of_append, List.length_append] at whole
      exact Nat.le.intro whole

/-- Nothing is delivered where nothing matches. -/
theorem tryPositions_none
    {charIsSigned : Bool}
    {state : IndexOfState}
    (notBefore : 0 ≤ search.firstPlace)
    (stands : StandsAt search.pString search.wanted search.text
      search.firstPlace.toNat state)
    (none_ : search.Matches = ∅) :
    tryPositions charIsSigned search.last search.wanted.sought search.pString
        search.tries state = -1 := by
  rw [tryPositions_eq]
  cases delivers : loop (search.wanted.round charIsSigned search.last
    search.pString) search.tries.toNat state with
  | none => rfl
  | some result =>
      have noMatch : ∀ place, place ∉ search.Matches :=
        fun place => none_ ▸ Set.notMem_empty place
      cases isLast : search.last with
      | false =>
          rw [isLast] at delivers
          apply loop_forward_none stands _ delivers
          intro place from_ inside occurs
          apply noMatch place
          rw [mem_matches_forward isLast]
          exact ⟨occurs, by omega, by omega⟩
      | true =>
          rw [isLast] at delivers
          apply loop_backward_none stands _ _ delivers
          · intro empty
            apply noMatch search.firstPlace.toNat
            have some : search.tries.toNat ≠ 0 := by
              intro noTries
              rw [noTries] at delivers
              cases delivers
            rw [mem_matches_backward isLast, empty]
            exact ⟨List.nil_prefix, by omega, by omega⟩
          · intro place from_ inside occurs
            apply noMatch place
            rw [mem_matches_backward isLast]
            exact ⟨occurs, by omega, by omega⟩

/-- The match that the search comes to first is delivered. -/
theorem tryPositions_found
    {charIsSigned : Bool}
    {state : IndexOfState}
    {place : Nat}
    (notBefore : 0 ≤ search.firstPlace)
    (inside : search.last = true → search.start < search.inputLen)
    (stands : StandsAt search.pString search.wanted search.text
      search.firstPlace.toNat state)
    (first : search.ComesFirst search.Matches place)
    (readable : search.Readable place) :
    tryPositions charIsSigned search.last search.wanted.sought search.pString
        search.tries state = place := by
  rw [tryPositions_eq]
  cases isLast : search.last with
  | false =>
      have least : IsLeast search.Matches place := by
        rw [ComesFirst, isLast] at first
        exact first
      have tried := (mem_matches_forward isLast).mp least.1
      rw [@loop_forward_found _ _ _ _ _ _ _ place stands (by omega) (by omega)
        tried.1]
      · rfl
      · intro earlier from_ before occurs
        have isMatch : earlier ∈ search.Matches :=
          (mem_matches_forward isLast).mpr ⟨occurs, by omega, by omega⟩
        exact absurd (least.2 isMatch) (Nat.not_le.mpr before)
      · intro earlier from_ upTo
        apply readable.notCut
        rw [OnTheWay, isLast]
        exact ⟨by omega, upTo⟩
  | true =>
      have greatest : IsGreatest search.Matches place := by
        rw [ComesFirst, isLast] at first
        exact first
      have tried := (mem_matches_backward isLast).mp greatest.1
      have isFirst : search.firstPlace =
          search.start - (search.searchLen - 1) := by
        rw [firstPlace, isLast]
        rfl
      have onTheWay : ∀ later, place ≤ later →
          later ≤ search.firstPlace.toNat → search.OnTheWay place later := by
        intro later from_ upTo
        rw [OnTheWay, isLast]
        exact ⟨from_, by omega⟩
      have fits : search.firstPlace.toNat + search.wanted.compared.length ≤
          (utf16Of search.text).length := by
        have part := compared_length_le search.wanted
        have startInside := inside isLast
        rw [searchLen] at isFirst
        rw [inputLen, units] at startInside
        omega
      rw [@loop_backward_found _ _ _ _ _ _ _ place stands (by omega) (by omega)
        fits tried.1]
      · rfl
      · intro later behind upTo occurs
        have isMatch : later ∈ search.Matches :=
          (mem_matches_backward isLast).mpr ⟨occurs, by omega, by omega⟩
        exact absurd (greatest.2 isMatch) (Nat.not_le.mpr behind)
      · intro later from_ upTo
        exact readable.notCut later (onTheWay later from_ upTo)
      · intro later from_ before
        exact readable.ascii isLast later
          (onTheWay later from_ (Nat.le_of_lt before)) (by omega)
      · intro pChars isChars before
        exact readable.asciiStart isLast pChars isChars (by omega)

/-! ## All searches -/

theorem occurs_compared
    {wanted : Wanted}
    {rest : List UInt16}
    (occurs : wanted.Occurs rest) :
    wanted.compared.Occurs rest := by
  cases wanted with
  | chars pChars => exact occurs
  | string characters =>
      have part : comparedPart characters ++ characters.dropWhile _ =
          characters := List.takeWhile_append_dropWhile
      have whole := congrArg utf16Of part
      rw [utf16Of_append] at whole
      exact List.IsPrefix.trans ⟨_, whole⟩ occurs

theorem occurrences_subset : search.Occurrences ⊆ search.Matches := by
  rintro place ⟨occurs, inWindow⟩
  refine ⟨occurs_compared occurs, ?_⟩
  have some := @one_le_searchLen search
  rw [firstPlace, tries, firstPlace, width] at *
  cases isLast : search.last with
  | false =>
      simp only [isLast, Bool.false_eq_true, if_false] at inWindow ⊢
      omega
  | true =>
      simp only [isLast, if_true] at inWindow ⊢
      cases isCount : search.count with
      | none =>
          simp only [isCount, Option.getD] at inWindow ⊢
          omega
      | some given =>
          simp only [isCount, Option.getD] at inWindow ⊢
          omega

theorem matches_cases :
    search.Matches = ∅ ∨
      ∃ place, search.ComesFirst search.Matches place := by
  rcases search.Matches.eq_empty_or_nonempty with empty | some
  · exact .inl empty
  · apply Or.inr
    cases isLast : search.last with
    | false =>
        refine ⟨sInf search.Matches, ?_⟩
        rw [ComesFirst, isLast]
        exact ⟨Nat.sInf_mem some, fun place isMatch => Nat.sInf_le isMatch⟩
    | true =>
        have bounded : BddAbove search.Matches := by
          refine ⟨search.firstPlace.toNat, fun place isMatch => ?_⟩
          have tried := (mem_matches_backward isLast).mp isMatch
          omega
        refine ⟨sSup search.Matches, ?_⟩
        rw [ComesFirst, isLast]
        exact ⟨Nat.sSup_mem some bounded,
          fun place isMatch => le_csSup bounded isMatch⟩

/-- The first match is the first occurrence where it is one. -/
theorem comesFirst_of_subset
    {places others : Set Nat}
    {place : Nat}
    (subset : places ⊆ others)
    (first : search.ComesFirst others place)
    (member : place ∈ places) :
    search.ComesFirst places place := by
  rw [ComesFirst] at *
  split at first
  case isTrue isLast =>
    rw [if_pos isLast]
    exact ⟨member, fun other inside => first.2 (subset inside)⟩
  case isFalse isForward =>
    rw [if_neg isForward]
    exact ⟨member, fun other inside => first.2 (subset inside)⟩

/-- The search from the place that is tried first. -/
theorem tryPositions_delivers
    {charIsSigned : Bool}
    {state : IndexOfState}
    (notBefore : 0 ≤ search.firstPlace)
    (stands : StandsAt search.pString search.wanted search.text
      search.firstPlace.toNat state)
    (serves : search.TriesWindow)
    (notLost : search.last = true → search.tries ≤ search.firstPlace + 1) :
    (search.Occurrences = ∅ ∧
        tryPositions charIsSigned search.last search.wanted.sought
          search.pString search.tries state = -1) ∨
      ∃ place : Nat, search.ComesFirst search.Occurrences place ∧
        tryPositions charIsSigned search.last search.wanted.sought
          search.pString search.tries state = place := by
  rcases @matches_cases search with empty | ⟨place, first⟩
  · refine .inl ⟨?_, tryPositions_none notBefore stands empty⟩
    exact Set.subset_empty_iff.mp (empty ▸ occurrences_subset)
  · obtain ⟨member, readable⟩ := serves.found notLost place first
    exact .inr ⟨place, comesFirst_of_subset occurrences_subset first member,
      tryPositions_found notBefore serves.inside stands first readable⟩

theorem outOfRange_of_invalid
    (serves : search.Serves)
    (invalid : search.start < 0 ∨ search.inputLen < search.start) :
    search.OutOfRange := by
  refine .inl ⟨fun isNone => ?_, invalid⟩
  have textLength := serves.startOfLast
  rw [start, isNone, Option.getD] at invalid
  cases isLast : search.last with
  | false =>
      simp only [isLast, Bool.false_eq_true, if_false] at invalid
      rw [inputLen] at invalid
      omega
  | true =>
      have some := List.length_pos_iff.mpr
        (utf16Of_ne_nil (textLength isLast isNone))
      simp only [isLast, if_true] at invalid
      rw [inputLen, units] at invalid
      omega

/-- A search backward whose window begins in the text tries no place before
it. -/
theorem not_exceeds
    (isLast : search.last = true)
    (notMore : search.tries ≤ search.firstPlace + 1) :
    ¬ search.Exceeds := by
  rintro ⟨-, exceeds⟩
  have some := @one_le_searchLen search
  rw [tries, firstPlace, isLast, if_pos rfl] at notMore
  rw [width, isLast] at exceeds
  cases isCount : search.count with
  | none =>
      simp only [isCount, Option.getD, if_true] at exceeds
      omega
  | some given =>
      simp only [isCount, Option.getD, if_true] at notMore exceeds
      omega

theorem inRange_of_last
    (valid : ¬ (search.start < 0 ∨ search.inputLen < search.start))
    (isLast : search.last = true) :
    ¬ search.OutOfRange := by
  rintro (⟨-, invalid⟩ | ⟨isForward, -⟩)
  · exact valid invalid
  · rw [isLast] at isForward
    cases isForward

/-- A search that finds nothing delivers that. -/
theorem delivers_nothing
    (inRange : ¬ search.OutOfRange)
    (nothing : ¬ search.Exceeds → search.Occurrences = ∅) :
    search.Delivers (.S_OK (-1)) :=
  ⟨fun outOfRange => absurd outOfRange inRange, fun _ _ => rfl,
    fun _ within => .inl ⟨nothing within, rfl⟩⟩

theorem delivers_failed
    (outOfRange : search.OutOfRange) :
    search.Delivers (.failed .CLR_E_OUT_OF_RANGE) :=
  ⟨fun _ => rfl, fun inRange => absurd outOfRange inRange,
    fun inRange => absurd outOfRange inRange⟩

/-- A search backward that has no place for the search string. -/
theorem occurrences_empty
    (isLast : search.last = true)
    (before : search.firstPlace < 0) :
    search.Occurrences = ∅ := by
  refine Set.subset_empty_iff.mp fun place member => ?_
  have tried := (mem_matches_backward isLast).mp (occurrences_subset member)
  omega

theorem firstPlace_forward
    (isForward : search.last = false) :
    search.firstPlace = search.start := by
  rw [firstPlace, isForward]
  rfl

theorem tries_forward
    (isForward : search.last = false) :
    search.tries = search.width - (search.searchLen - 1) := by
  rw [tries, isForward]
  rfl

/-- The last `b` of `abcb` at or before the third character. -/
def lastBefore : Search where
  text := ['a', 'b', 'c', 'b']
  wanted := .chars [98]
  argument := .singleChar 98
  startIndex := some 2
  count := none
  last := true
  asks := rfl
  textNotZero := List.all_iff_forall_prop.mp (by decide)
  wantedNotZero := by rintro characters ⟨⟩
  wantedNotEmpty := by rintro ⟨⟩
  textShort := by decide
  wantedShort := by decide

/-- A window that begins before the text. -/
def beforeText : Search where
  text := ['a', 'b', 'c']
  wanted := .chars [97]
  argument := .singleChar 97
  startIndex := some 1
  count := some 3
  last := true
  asks := rfl
  textNotZero := List.all_iff_forall_prop.mp (by decide)
  wantedNotZero := by rintro characters ⟨⟩
  wantedNotEmpty := by rintro ⟨⟩
  textShort := by decide
  wantedShort := by decide

theorem eq_of_matches_lastBefore
    {place : Nat}
    (isMatch : place ∈ lastBefore.Matches) :
    place = 1 := by
  obtain ⟨⟨unit, isWanted, isHead⟩, atMost, -⟩ :=
    (mem_matches_backward rfl).mp isMatch
  have places : ∀ place < 3,
      (lastBefore.units.drop place).head? = some 98 → place = 1 := by
    decide
  cases List.mem_singleton.mp isWanted
  exact places place (Int.ofNat_lt.mp (Int.lt_add_one_of_le atMost)) isHead

theorem ascii_lastBefore (place : Nat) :
    AsciiHead (lastBefore.units.drop place) := by
  intro unit isHead
  have ascii : ∀ unit ∈ lastBefore.units, unit.toNat < 0x80 :=
    List.all_iff_forall_prop.mp (by decide)
  exact ascii unit (List.mem_of_mem_drop (List.mem_of_mem_head? isHead))

theorem readable_lastBefore : lastBefore.Readable 1 where
  notCut between _ := by
    rintro ⟨unit, isHead, isHigh, -⟩
    have small := ascii_lastBefore between unit isHead
    omega
  ascii _ between _ _ := ascii_lastBefore between
  asciiStart _ _ _ _ := ascii_lastBefore _

theorem serves_lastBefore : lastBefore.Serves where
  startOfLast _ isNone := by cases isNone
  counts _ _ := ⟨by decide, fun isForward => by cases isForward⟩
  triesWindow _ _ := {
    inside := fun _ => by decide
    atCharacter := fun _ => ⟨['a', 'b'], ['c', 'b'], rfl, by decide⟩
    noneLost := fun _ more => absurd more (by decide)
    found := by
      intro _ place first
      cases eq_of_matches_lastBefore first.1
      exact ⟨⟨⟨98, by decide, rfl⟩, by decide, by decide⟩,
        readable_lastBefore⟩ }

end Search

end Text

end NanoClr
