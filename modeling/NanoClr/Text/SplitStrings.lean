import NanoClr.Library.ListSplitting
import NanoClr.Text.CharArrays

/-!
# Splitting strings

`Split` goes twice over the characters of a string: it counts the parts, and
then it stores them in an array of as many references.
-/

namespace NanoClr

namespace Text

open Arrays

/-- `c_WhiteSpaces`: the characters that separate where no separators are
given. -/
def c_WhiteSpaces : List UInt16 :=
  [0x0009, 0x000A, 0x000B, 0x000C, 0x000D, 0x0020, 0x00A0, 0x2000, 0x2001,
    0x2002, 0x2003, 0x2004, 0x2005, 0x2006, 0x2007, 0x2008, 0x2009, 0x200A,
    0x200B, 0x3000, 0xFEFF]

/-- The variables of a pass; the array holds the texts of its strings. -/
structure SplitPass where
  pSrcStart : Nat
  pSrc : Nat
  count : Nat
  fContinueSearching : Bool
  arrayDst : List (Option (List UInt8))

section Passes

variable (heap : StringHeap) (pChars : List UInt16) (maxStrings : Int)
  (arraySrc : List UInt16) (pass : Nat)

/-- The part that ends before the current character is found. -/
def partFound (state : SplitPass) : CallResult SplitPass :=
  if pass = 1 then
    if state.count < state.arrayDst.length then
      match CreateInstance heap
          (fun place => heap.arrayMemory arraySrc (state.pSrcStart + place))
          ((state.pSrc : Int) - state.pSrcStart) with
      | .S_OK str =>
          .S_OK { state with
            arrayDst := state.arrayDst.set state.count (some str)
            pSrcStart := state.pSrc + 1
            count := state.count + 1 }
      | .failed hr => .failed hr
      | .outside => .outside
    else
      .outside
  else
    .S_OK { state with count := state.count + 1 }

/-- A pass over the characters from the current one on. -/
def splitPass : List UInt16 → SplitPass → CallResult SplitPass
  | [], state => partFound heap arraySrc pass state
  | ch :: rest, state =>
      if maxStrings ≤ state.count + 1 then
        splitPass rest { state with
          fContinueSearching := false
          pSrc := state.pSrc + 1 }
      else if state.fContinueSearching && pChars.contains ch then
        match partFound heap arraySrc pass state with
        | .S_OK state => splitPass rest { state with pSrc := state.pSrc + 1 }
        | failure => failure
      else
        splitPass rest { state with pSrc := state.pSrc + 1 }

end Passes

/-- The characters that separate parts. -/
def separators : Option (List UInt16) → List UInt16
  | some (ch :: chars) => ch :: chars
  | _ => c_WhiteSpaces

/-- `Split`: the pieces between separators, of which the last takes what is left
over when there would be too many. -/
def Split (heap : StringHeap) (szText : Option (List UInt8))
    (chars : Option (List UInt16)) (maxStrings : Int) :
    CallResult (List (Option (List UInt8))) :=
  if maxStrings < 0 then
    .failed .CLR_E_OUT_OF_RANGE
  else if maxStrings = 0 then
    if heap.references 0 then .S_OK [] else .failed .CLR_E_OUT_OF_MEMORY
  else
    match ConvertToCharArray heap szText 0 (-1) with
    | .failed hr => .failed hr
    | .outside => .outside
    | .S_OK arraySrc =>
        let run := splitPass heap (separators chars) maxStrings arraySrc
        match run 0 arraySrc ⟨0, 0, 0, true, []⟩ with
        | .failed hr => .failed hr
        | .outside => .outside
        | .S_OK counted =>
            if heap.references counted.count = false then
              .failed .CLR_E_OUT_OF_MEMORY
            else
              (run 1 arraySrc
                ⟨0, 0, 0, true, List.replicate counted.count none⟩).map
                  (·.arrayDst)

/-! ## The passes -/

section Passes

variable {heap : StringHeap} {pChars : List UInt16} {maxStrings : Int}
  {arraySrc : List UInt16}

/-- How many parts may follow the current one; once there are none, the search
has ended. -/
structure MayFollow (maxStrings : Int) (further : Nat) (state : SplitPass) :
    Prop where
  isFurther : (state.count : Int) + 1 + further = maxStrings
  searching : 0 < further → state.fContinueSearching = true

theorem splitPass_counts
    {further : Nat}
    {part rest : List UInt16}
    {state : SplitPass}
    (mayFollow : MayFollow maxStrings further state) :
    ∃ last, splitPass heap pChars maxStrings arraySrc 0 rest state =
        .S_OK last ∧
      last.count = state.count +
        (splitParts pChars.contains further part rest).length := by
  have isFurther := mayFollow.isFurther
  induction rest generalizing further part state with
  | nil => exact ⟨_, rfl, rfl⟩
  | cons ch rest inductionHypothesis =>
      rw [splitPass]
      cases further with
      | zero =>
          rw [if_pos (by omega), splitParts]
          exact inductionHypothesis ⟨isFurther, nofun⟩ isFurther
      | succ further =>
          have searches : (state.fContinueSearching && pChars.contains ch) =
              pChars.contains ch := by
            rw [mayFollow.searching (Nat.succ_pos _), Bool.true_and]
          rw [if_neg (by omega), searches, splitParts]
          split
          · obtain ⟨last, isLast, isCount⟩ := @inductionHypothesis further []
              { state with
                count := state.count + 1
                pSrc := state.pSrc + 1 }
              ⟨by dsimp only; omega,
                fun _ => mayFollow.searching (Nat.succ_pos _)⟩
              (by dsimp only; omega)
            refine ⟨last, isLast, ?_⟩
            rw [isCount, List.length_cons, Nat.add_right_comm, Nat.add_assoc]
          · exact inductionHypothesis ⟨isFurther, mayFollow.searching⟩ isFurther

/-- The characters of a string, of which a pass has gone over some. -/
structure StoresParts
    (arraySrc : List UInt16)
    (characters part rest : List Char)
    (done : List (List Char))
    (missing : Nat)
    (state : SplitPass) : Prop where
  isArray : arraySrc = (characters ++ (part ++ rest)).map unitOf
  isStart : state.pSrcStart = characters.length
  isPlace : state.pSrc = characters.length + part.length
  isCount : state.count = done.length
  stored : state.arrayDst =
    done.map (fun part => some (utf8Of part)) ++ List.replicate missing none

theorem holds_arrayMemory
    {before part after : List UInt16} :
    Holds (fun place => heap.arrayMemory (before ++ (part ++ after))
      (before.length + place)) 0 part := by
  suffices shifted : ∀ (left : List UInt16) (address : Nat),
      part.drop address = left →
        Holds (fun place => heap.arrayMemory (before ++ (part ++ after))
          (before.length + place)) address left from
    shifted part 0 rfl
  intro left
  induction left with
  | nil => exact fun _ _ => holds_nil
  | cons unit left inductionHypothesis =>
      intro address isLeft
      have inside : address < part.length := by
        by_contra outside
        rw [List.drop_eq_nil_of_le (Nat.not_lt.mp outside)] at isLeft
        cases isLeft
      rw [List.drop_eq_getElem_cons inside, List.cons.injEq] at isLeft
      rw [holds_cons]
      refine ⟨?_, inductionHypothesis (address + 1) isLeft.2⟩
      rw [← isLeft.1]
      unfold StringHeap.arrayMemory
      rw [List.getD_eq_getElem?_getD, List.getElem?_append_right (by omega),
        Nat.add_sub_cancel_left, List.getElem?_append_left inside,
        List.getElem?_eq_getElem inside]
      rfl

theorem partFound_stores
    {characters part rest : List Char}
    {done : List (List Char)}
    {missing : Nat}
    {state : SplitPass}
    (notZero : ∀ character ∈ part, character.toNat ≠ 0)
    (inPlane : ∀ character ∈ part, character.toNat < 0x10000)
    (supplied : ∀ length, heap.string length)
    (stores : StoresParts arraySrc characters part rest done (missing + 1)
      state) :
    partFound heap arraySrc 1 state = .S_OK
      { state with
        arrayDst := (done ++ [part]).map (fun part => some (utf8Of part)) ++
          List.replicate missing none
        pSrcStart := state.pSrc + 1
        count := state.count + 1 } := by
  have isUnits := utf16Of_eq_map inPlane
  have isArray := stores.isArray
  rw [List.map_append, List.map_append, ← isUnits] at isArray
  have held : Holds (fun place => heap.arrayMemory arraySrc
      (state.pSrcStart + place)) 0 (utf16Of part) := by
    rw [isArray, stores.isStart, ← List.length_map (f := unitOf)]
    exact holds_arrayMemory
  have isLength : (state.pSrc : Int) - state.pSrcStart =
      (utf16Of part).length := by
    rw [stores.isPlace, stores.isStart, isUnits, List.length_map]
    omega
  have created := createInstance_utf16Of notZero inPlane held supplied
  unfold partFound
  rw [if_pos rfl, if_pos, isLength, created]
  · dsimp only
    rw [stores.stored, stores.isCount, List.replicate_succ,
      List.set_append_right _ _ (by rw [List.length_map]), List.length_map,
      Nat.sub_self, List.set_cons_zero, List.map_append, List.append_assoc]
    rfl
  · rw [stores.stored, stores.isCount, List.length_append, List.length_map,
      List.length_replicate]
    omega

theorem StoresParts.longer
    {characters part rest : List Char}
    {done : List (List Char)}
    {missing : Nat}
    {character : Char}
    {fContinueSearching : Bool}
    {state : SplitPass}
    (stores : StoresParts arraySrc characters part (character :: rest) done
      missing state) :
    StoresParts arraySrc characters (part ++ [character]) rest done missing
      { state with
        fContinueSearching := fContinueSearching
        pSrc := state.pSrc + 1 } where
  isArray := by
    rw [List.append_assoc]
    exact stores.isArray
  isStart := stores.isStart
  isPlace := by
    dsimp only
    rw [stores.isPlace, List.length_append, List.length_singleton,
      Nat.add_assoc]
  isCount := stores.isCount
  stored := stores.stored

/-- The next part starts behind a separator. -/
theorem StoresParts.next
    {characters part rest : List Char}
    {done : List (List Char)}
    {missing : Nat}
    {character : Char}
    {state : SplitPass}
    (stores : StoresParts arraySrc characters part (character :: rest) done
      (missing + 1) state) :
    StoresParts arraySrc (characters ++ (part ++ [character])) [] rest
      (done ++ [part]) missing
      { state with
        arrayDst := (done ++ [part]).map (fun part => some (utf8Of part)) ++
          List.replicate missing none
        pSrcStart := state.pSrc + 1
        pSrc := state.pSrc + 1
        count := state.count + 1 } where
  isArray := by
    rw [stores.isArray]
    simp
  isStart := by
    dsimp only
    rw [stores.isPlace, List.length_append, List.length_append]
    rfl
  isPlace := by
    dsimp only
    rw [stores.isPlace, List.length_append, List.length_append]
    rfl
  isCount := by
    dsimp only
    rw [stores.isCount, List.length_append]
    rfl
  stored := rfl

/-- The second pass stores the parts of the characters. -/
theorem splitPass_stores
    {further : Nat}
    {characters part rest : List Char}
    {done : List (List Char)}
    {state : SplitPass}
    (notZero : ∀ character ∈ part ++ rest, character.toNat ≠ 0)
    (inPlane : ∀ character ∈ part ++ rest, character.toNat < 0x10000)
    (supplied : ∀ length, heap.string length)
    (mayFollow : MayFollow maxStrings further state)
    (stores : StoresParts arraySrc characters part rest done
      (splitParts (fun character => pChars.contains (unitOf character)) further
        part rest).length state) :
    ∃ last, splitPass heap pChars maxStrings arraySrc 1 (rest.map unitOf)
        state = .S_OK last ∧
      last.arrayDst = (done ++ splitParts
        (fun character => pChars.contains (unitOf character)) further part
          rest).map (fun part => some (utf8Of part)) := by
  have isFurther := mayFollow.isFurther
  induction rest generalizing further characters part done state with
  | nil =>
      rw [List.append_nil] at notZero inPlane
      refine ⟨_, partFound_stores notZero inPlane supplied stores, ?_⟩
      exact List.append_nil _
  | cons character rest inductionHypothesis =>
      have longer (fContinueSearching : Bool)
          (searching : 0 < further → fContinueSearching = true)
          (isLonger : splitParts
              (fun character => pChars.contains (unitOf character)) further
              part (character :: rest) =
            splitParts (fun character => pChars.contains (unitOf character))
              further (part ++ [character]) rest) :
          ∃ last, splitPass heap pChars maxStrings arraySrc 1
              (rest.map unitOf)
              { state with
                fContinueSearching := fContinueSearching
                pSrc := state.pSrc + 1 } = .S_OK last ∧
            last.arrayDst = (done ++ splitParts
              (fun character => pChars.contains (unitOf character)) further
                part (character :: rest)).map
                  (fun part => some (utf8Of part)) := by
        rw [isLonger] at stores ⊢
        exact inductionHypothesis (by rwa [List.append_assoc])
          (by rwa [List.append_assoc]) ⟨isFurther, searching⟩ stores.longer
          isFurther
      rw [List.map_cons, splitPass]
      cases further with
      | zero =>
          rw [if_pos (by omega)]
          exact longer false nofun rfl
      | succ further =>
          have searches : (state.fContinueSearching &&
                pChars.contains (unitOf character)) =
              pChars.contains (unitOf character) := by
            rw [mayFollow.searching (Nat.succ_pos _), Bool.true_and]
          rw [if_neg (by omega), searches]
          by_cases separates : pChars.contains (unitOf character) = true
          · rw [if_pos separates]
            have isParts : splitParts
                (fun character => pChars.contains (unitOf character))
                (further + 1) part (character :: rest) =
              part :: splitParts
                (fun character => pChars.contains (unitOf character)) further []
                  rest := by
              rw [splitParts, if_pos separates]
            rw [isParts] at stores ⊢
            rw [List.forall_mem_append] at notZero inPlane
            rw [partFound_stores notZero.1 inPlane.1 supplied stores,
              List.append_cons done part (splitParts _ further [] rest)]
            have next : ((state.count + 1 : Nat) : Int) + 1 + further =
                maxStrings := by omega
            refine @inductionHypothesis further _ [] _ _ ?_ ?_ ?_ stores.next
              next
            · exact fun other member =>
                notZero.2 other (List.mem_cons_of_mem _ member)
            · exact fun other member =>
                inPlane.2 other (List.mem_cons_of_mem _ member)
            · exact ⟨next, fun _ => mayFollow.searching (Nat.succ_pos _)⟩
          · rw [if_neg separates]
            exact longer state.fContinueSearching mayFollow.searching
              (by rw [splitParts, if_neg separates])

end Passes

/-! ## What is split -/

section Split

variable {heap : StringHeap} {string : BmpString}

/-- A character of which the unit is a separator. -/
def separates (chars : Option (List UInt16)) (character : Char) : Bool :=
  (separators chars).contains (unitOf character)

theorem split_eq
    (array : ∀ length, heap.array length)
    (references : ∀ length, heap.references length)
    (supplied : ∀ length, heap.string length)
    (chars : Option (List UInt16))
    (further : Nat) :
    Split heap (some (utf8Of string.characters)) chars (further + 1) =
      .S_OK ((splitParts (separates chars) further [] string.characters).map
        fun part => some (utf8Of part)) := by
  have converted := convertToCharArray_all string.notZero string.inPlane array
  rw [utf16Of_eq_map string.inPlane] at converted
  obtain ⟨counted, isCounted, isCount⟩ := @splitPass_counts heap
    (separators chars) (further + 1) (string.characters.map unitOf) further []
    (string.characters.map unitOf) ⟨0, 0, 0, true, []⟩
    ⟨by dsimp only; omega, fun _ => rfl⟩
  have sameParts : splitParts (separators chars).contains further []
        (string.characters.map unitOf) =
      (splitParts (separates chars) further [] string.characters).map
        (List.map unitOf) :=
    @splitParts_map _ (separators chars).contains further _ unitOf [] _
  rw [sameParts, List.length_map] at isCount
  obtain ⟨stored, isStored, isParts⟩ := @splitPass_stores heap
    (separators chars) (further + 1) (string.characters.map unitOf) further []
    [] string.characters []
    ⟨0, 0, 0, true, List.replicate counted.count none⟩ string.notZero
    string.inPlane supplied ⟨by dsimp only; omega, fun _ => rfl⟩
    ⟨rfl, rfl, rfl, rfl, by
      dsimp only
      rw [isCount, Nat.zero_add]
      rfl⟩
  unfold Split
  rw [if_neg (by omega), if_neg (by omega), converted]
  dsimp only
  rw [isCounted]
  dsimp only
  rw [if_neg (by rw [references]; exact Bool.noConfusion), isStored]
  exact congrArg CallResult.S_OK isParts

/-- Splitting a string into at most so many parts loses nothing, and into none
gives none. -/
theorem split_losesNothing
    (array : ∀ length, heap.array length)
    (references : ∀ length, heap.references length)
    (supplied : ∀ length, heap.string length)
    (string : BmpString)
    (chars : Option (List UInt16)) :
    Split heap (some (utf8Of string.characters)) chars 0 = .S_OK [] ∧
      ∀ maxStrings : Int, 1 ≤ maxStrings → ∃ parts between,
        Split heap (some (utf8Of string.characters)) chars maxStrings =
            .S_OK (parts.map fun part => some (utf8Of part)) ∧
          IsSplit (separates chars) maxStrings.toNat string.characters parts
            between := by
  constructor
  · unfold Split
    rw [if_neg (Int.lt_irrefl 0), if_pos rfl, if_pos (references 0)]
  · intro maxStrings positive
    obtain ⟨further, rfl⟩ : ∃ further : Nat, maxStrings = further + 1 :=
      ⟨(maxStrings - 1).toNat, by omega⟩
    obtain ⟨between, isSplit⟩ := @isSplit_splitParts _ (separates chars)
      further [] string.characters nofun
    exact ⟨_, between, split_eq array references supplied chars further,
      isSplit⟩

end Split

/-- A heap that has everything. -/
def ampleHeap : StringHeap where
  array := fun _ => true
  references := fun _ => true
  string := fun _ => true
  fresh := fun _ => 0xCC
  behind := fun _ => 0xCCCC

/-- Words with a space and a tabulator between them. -/
theorem split_losesNothing_words :
    ∃ parts between,
      Split ampleHeap (some (utf8Of ['a', ' ', 'é', '\t', '€'])) none 2 =
          .S_OK (parts.map fun part => some (utf8Of part)) ∧
        IsSplit (separates none) 2 ['a', ' ', 'é', '\t', '€'] parts between :=
  (@split_losesNothing ampleHeap (fun _ => rfl) (fun _ => rfl) (fun _ => rfl)
    { characters := ['a', ' ', 'é', '\t', '€']
      notZero := List.all_iff_forall_prop.mp (by decide)
      inPlane := List.all_iff_forall_prop.mp (by decide) } none).2 2
    (by decide)

end Text

end NanoClr
