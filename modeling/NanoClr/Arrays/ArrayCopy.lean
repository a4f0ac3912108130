import Mathlib.Logic.Function.Basic
import NanoClr.Arrays.Elements

/-!
# Copying arrays

`CLR_RT_HeapBlock_Array::Copy`: the range check, the copy of the bytes of
numbers, and the copies element by element.
-/

namespace NanoClr

namespace Arrays

open HeapBlock TypeSystem

/-- The arrays by their addresses. -/
abbrev ArrayHeap := Nat → CLR_RT_HeapBlock_Array Element

/-- What is done with an element before it is stored, and how it is stored. -/
structure Transfer (σ : Type) where
  load : σ → Element → CallResult (Element × σ)
  store : Element → Element → Element × CallResult Unit

variable {σ : Type}

/-! ## Element by element -/

/-- The loop over the elements, for a number of rounds. -/
def copyRounds (transfer : Transfer σ) (src dst : Nat) (incr : UInt32) :
    Nat → σ → UInt32 → UInt32 → ArrayHeap → ArrayHeap × CallResult Unit
  | 0, _, _, _, heap => (heap, .S_OK ())
  | rounds + 1, state, indexSrc, indexDst, heap =>
      match readElement (heap src) indexSrc with
      | none => (heap, .outside)
      | some element =>
          match transfer.load state element with
          | .failed hr => (heap, .failed hr)
          | .outside => (heap, .outside)
          | .S_OK (value, state) =>
              match readElement (heap dst) indexDst with
              | none => (heap, .outside)
              | some slot =>
                  let stored := transfer.store slot value
                  match writeElements (heap dst) indexDst [stored.1] with
                  | none => (heap, .outside)
                  | some array =>
                      match stored.2 with
                      | .S_OK _ =>
                          copyRounds transfer src dst incr rounds state
                            (indexSrc + incr) (indexDst + incr)
                            (Function.update heap dst array)
                      | failure => (Function.update heap dst array, failure)

/-- Between arrays of one type elements are assigned. -/
def reassigning : Transfer Unit where
  load state element := .S_OK (element, state)
  store := Reassign

@[simp] theorem reassigning_load (state : Unit) (element : Element) :
    reassigning.load state element = .S_OK (element, state) := rfl

@[simp] theorem reassigning_store (slot value : Element) :
    reassigning.store slot value = Reassign slot value := rfl

section Types

variable {Descriptor : Type} (system : ElementTypes Descriptor)

/-- Between arrays of objects they are checked before. -/
def casting : Transfer Descriptor where
  load descriptor element :=
    (checkInstance system element descriptor).map fun descriptor =>
      (element, descriptor)
  store := Reassign

/-- Otherwise elements are loaded, checked and stored. -/
def converting (arraySrc arrayDst : CLR_RT_HeapBlock_Array Element) :
    Transfer (Descriptor × Nat) where
  load state element :=
    match LoadFromReference system arraySrc state.2 element with
    | .S_OK elem =>
        (checkInstance system elem state.1).map fun descriptor =>
          (elem, descriptor, state.2 + 1)
    | .failed hr => .failed hr
    | .outside => .outside
  store := StoreToReference system arrayDst

/-! ## The copy -/

/-- `memmove` of the bytes of so many elements; the number of bytes is computed
with 32 bits. -/
def memmoveElements (heap : ArrayHeap) (src : Nat) (indexSrc : UInt32)
    (dst : Nat) (indexDst length : UInt32) : ArrayHeap × CallResult Unit :=
  let sizeElem := (heap src).m_sizeOfElement
  let count := (length * sizeElem.toUInt32).toNat / sizeElem.toNat
  match (readElements (heap src) indexSrc count).bind
      (writeElements (heap dst) indexDst) with
  | none => (heap, .outside)
  | some array => (Function.update heap dst array, .S_OK ())

/-- The copy within an array starts at the end where it moves elements up. -/
def copySameType (heap : ArrayHeap) (src : Nat) (indexSrc : UInt32)
    (dst : Nat) (indexDst length : UInt32) : ArrayHeap × CallResult Unit :=
  let ptrSrc := GetElement (heap src) indexSrc
  let ptrDst := GetElement (heap dst) indexDst
  if src = dst ∧ ptrSrc < ptrDst then
    copyRounds reassigning src dst (-1) length.toNat ()
      (indexSrc + (length - 1)) (indexDst + (length - 1)) heap
  else
    copyRounds reassigning src dst 1 length.toNat () indexSrc indexDst heap

/-- The range check of `Copy`. -/
def outOfRange (arraySrc : CLR_RT_HeapBlock_Array Element) (indexSrc : Int32)
    (arrayDst : CLR_RT_HeapBlock_Array Element) (indexDst length : Int32) :
    Prop :=
  let numElemSrc := arraySrc.m_numOfElements.toInt32
  let numElemDst := arrayDst.m_numOfElements.toInt32
  length < 0 ∨ indexSrc < 0 ∨ indexDst < 0 ∨
    numElemSrc < length + indexSrc ∨ numElemDst < length + indexDst

instance (arraySrc : CLR_RT_HeapBlock_Array Element) (indexSrc : Int32)
    (arrayDst : CLR_RT_HeapBlock_Array Element) (indexDst length : Int32) :
    Decidable (outOfRange arraySrc indexSrc arrayDst indexDst length) :=
  inferInstanceAs (Decidable (_ ∨ _))

/-- `CLR_RT_HeapBlock_Array::Copy`: by moving memory where both arrays hold
numbers of one type, and element by element otherwise. -/
def Copy (heap : ArrayHeap) (src : Nat) (indexSrc : Int32) (dst : Nat)
    (indexDst length : Int32) : ArrayHeap × CallResult Unit :=
  let arraySrc := heap src
  let arrayDst := heap dst
  if length = 0 then
    (heap, .S_OK ())
  else if outOfRange arraySrc indexSrc arrayDst indexDst length then
    (heap, .failed .CLR_E_OUT_OF_RANGE)
  else if src = dst ∧ indexSrc = indexDst then
    (heap, .S_OK ())
  else if arraySrc.reflectionData = arrayDst.reflectionData then
    if !arraySrc.m_fReference then
      memmoveElements heap src indexSrc.toUInt32 dst indexDst.toUInt32
        length.toUInt32
    else
      copySameType heap src indexSrc.toUInt32 dst indexDst.toUInt32
        length.toUInt32
  else
    match system.describeElements arrayDst.reflectionData with
    | .error failure => (heap, .failed failure.toHResult)
    | .ok descriptor =>
        if arraySrc.m_fReference && arrayDst.m_fReference then
          copyRounds (casting system) src dst 1 length.toUInt32.toNat
            descriptor indexSrc.toUInt32 indexDst.toUInt32 heap
        else
          copyRounds (converting system arraySrc arrayDst) src dst 1
            length.toUInt32.toNat (descriptor, 0) indexSrc.toUInt32
            indexDst.toUInt32 heap

end Types

/-! ## Transfers of whole ranges -/

/-- The elements that a transfer stores, if it stores all of them. -/
def transferAll (transfer : Transfer σ) :
    σ → List Element → List Element → Option (List Element)
  | state, slot :: slots, element :: elements =>
      match transfer.load state element with
      | .S_OK (value, state) =>
          match transfer.store slot value with
          | (stored, .S_OK _) =>
              (transferAll transfer state slots elements).map (stored :: ·)
          | _ => none
      | _ => none
  | _, _, _ => some []

section Rounds

variable {transfer : Transfer σ} {heap : ArrayHeap} {src dst : Nat}

theorem drop_take_succ
    {β : Type}
    {items : List β}
    {place count : Nat}
    (inside : place + (count + 1) ≤ items.length) :
    (items.drop place).take (count + 1) =
      items[place] :: (items.drop (place + 1)).take count := by
  rw [List.drop_eq_getElem_cons (by omega), List.take_succ_cons]

section Update

variable {indexDst : Nat} {stored : Element}

theorem addressed_update
    {other : Nat}
    (addressed : (heap other).Addressed)
    (inside : indexDst < (heap dst).elements.length) :
    (Function.update heap dst { heap dst with
      elements := splice (heap dst).elements indexDst [stored] }
        other).Addressed := by
  by_cases same : other = dst
  · subst same
    rw [Function.update_self]
    exact addressed.withElements (length_splice inside)
  · rw [Function.update_of_ne same]
    exact addressed

theorem length_update
    {other : Nat}
    (inside : indexDst < (heap dst).elements.length) :
    (Function.update heap dst { heap dst with
      elements := splice (heap dst).elements indexDst [stored] }
        other).elements.length = (heap other).elements.length := by
  by_cases same : other = dst
  · subst same
    rw [Function.update_self]
    exact length_splice inside
  · rw [Function.update_of_ne same]

/-- The elements of a range behind an element that is written, in the array
that is written or in another one. -/
theorem drop_update
    {indexSrc : Nat}
    (apart : src ≠ dst ∨ indexDst ≤ indexSrc)
    (inside : indexDst < (heap dst).elements.length) :
    (Function.update heap dst { heap dst with
        elements := splice (heap dst).elements indexDst [stored] }
      src).elements.drop (indexSrc + 1) =
        (heap src).elements.drop (indexSrc + 1) := by
  by_cases same : src = dst
  · subst same
    rw [Function.update_self]
    apply drop_splice
    · exact inside
    · have order := apart.resolve_left (not_not.mpr rfl)
      exact Nat.succ_le_succ order
  · rw [Function.update_of_ne same]

end Update

/-- Rounds from the first element on: what they store are the transferred
elements, unless one of them fails. -/
theorem copyRounds_up
    {rounds indexSrc indexDst : Nat}
    {state : σ}
    (addressedSrc : (heap src).Addressed)
    (addressedDst : (heap dst).Addressed)
    (apart : src ≠ dst ∨ indexDst ≤ indexSrc)
    (insideSrc : indexSrc + rounds ≤ (heap src).elements.length)
    (insideDst : indexDst + rounds ≤ (heap dst).elements.length) :
    match transferAll transfer state
        (((heap dst).elements.drop indexDst).take rounds)
        (((heap src).elements.drop indexSrc).take rounds) with
    | some stored =>
        stored.length = rounds ∧
        copyRounds transfer src dst 1 rounds state (UInt32.ofNat indexSrc)
            (UInt32.ofNat indexDst) heap =
          (Function.update heap dst { heap dst with
            elements := splice (heap dst).elements indexDst stored },
            .S_OK ())
    | none =>
        (copyRounds transfer src dst 1 rounds state (UInt32.ofNat indexSrc)
          (UInt32.ofNat indexDst) heap).2 ≠ .S_OK () := by
  induction rounds generalizing state indexSrc indexDst heap with
  | zero =>
      simp [transferAll, copyRounds]
  | succ rounds inductionHypothesis =>
      have readSrc := readElement_inside addressedSrc
        (show indexSrc < _ by omega)
      have readDst := readElement_inside addressedDst
        (show indexDst < _ by omega)
      rw [List.getElem?_eq_getElem (by omega)] at readSrc readDst
      rw [drop_take_succ insideSrc, drop_take_succ insideDst, transferAll,
        copyRounds, readSrc]
      dsimp only
      cases transfer.load state (heap src).elements[indexSrc] with
      | failed hr => simp
      | outside => simp
      | S_OK loaded =>
          obtain ⟨value, later⟩ := loaded
          dsimp only
          rw [readDst]
          dsimp only
          obtain ⟨stored, result⟩ :=
            transfer.store (heap dst).elements[indexDst] value
          have inside : indexDst < (heap dst).elements.length := by omega
          have wrote : writeElements _ _ [stored] = _ :=
            writeElements_inside addressedDst inside
          dsimp only
          rw [wrote]
          cases result with
          | failed hr => simp
          | outside => simp
          | S_OK done =>
              have step := @inductionHypothesis
                (Function.update heap dst { heap dst with
                  elements := splice (heap dst).elements indexDst [stored] })
                (indexSrc + 1) (indexDst + 1) later
                (addressed_update addressedSrc inside)
                (addressed_update addressedDst inside)
                (apart.imp_right Nat.succ_le_succ)
                (by rw [length_update inside]; omega)
                (by rw [length_update inside]; omega)
              rw [drop_update (Or.inr (Nat.le_refl _)) inside,
                drop_update apart inside, UInt32.ofNat_add, UInt32.ofNat_add,
                Function.update_self] at step
              dsimp only at step ⊢
              cases rest : transferAll transfer later
                  (((heap dst).elements.drop (indexDst + 1)).take rounds)
                  (((heap src).elements.drop (indexSrc + 1)).take rounds) with
              | none =>
                  rw [rest] at step
                  exact step
              | some results =>
                  rw [rest] at step
                  obtain ⟨length, copied⟩ := step
                  have behind : splice (splice (heap dst).elements indexDst
                      [stored]) (indexDst + 1) results = splice
                        (heap dst).elements indexDst ([stored] ++ results) :=
                    splice_splice inside
                  rw [Function.update_idem, behind] at copied
                  refine ⟨by rw [List.length_cons, length], ?_⟩
                  exact copied

/-- Each element of a range can be assigned to its place. -/
def AllAssigned (slots elements : List Element) : Prop :=
  ∀ pair ∈ slots.zip elements, CanAssign pair.1 pair.2 = true

theorem allAssigned_concat
    {slots elements : List Element}
    {slot element : Element}
    (sameLength : slots.length = elements.length) :
    AllAssigned (slots ++ [slot]) (elements ++ [element]) ↔
      AllAssigned slots elements ∧ (Reassign slot element).2 = .S_OK () := by
  unfold AllAssigned
  rw [List.zip_append sameLength, List.forall_mem_append]
  simp [reassign_ok_iff]

theorem drop_take_last
    {β : Type}
    {items : List β}
    {place count : Nat}
    (inside : place + (count + 1) ≤ items.length) :
    (items.drop place).take (count + 1) =
      (items.drop place).take count ++ [items[place + count]] := by
  rw [List.take_add_one, List.getElem?_drop,
    List.getElem?_eq_getElem (by omega)]
  rfl

/-- Rounds from the last element on, within an array whose elements move up. -/
theorem copyRounds_down
    {rounds indexSrc indexDst : Nat}
    (addressed : (heap src).Addressed)
    (up : indexSrc ≤ indexDst)
    (inside : indexDst + rounds ≤ (heap src).elements.length) :
    let slots := ((heap src).elements.drop indexDst).take rounds
    let elements := ((heap src).elements.drop indexSrc).take rounds
    let copied := copyRounds reassigning src src (-1) rounds ()
      (UInt32.ofNat (indexSrc + rounds) - 1)
      (UInt32.ofNat (indexDst + rounds) - 1) heap
    (AllAssigned slots elements → copied =
      (Function.update heap src { heap src with
        elements := splice (heap src).elements indexDst elements },
        .S_OK ())) ∧
    (copied.2 = .S_OK () → AllAssigned slots elements) := by
  induction rounds generalizing heap with
  | zero =>
      simp [AllAssigned, copyRounds]
  | succ rounds inductionHypothesis =>
      have places (place : Nat) :
          UInt32.ofNat (place + (rounds + 1)) - 1 =
            UInt32.ofNat (place + rounds) := by
        rw [← Nat.add_assoc, UInt32.ofNat_add]
        exact UInt32.add_sub_cancel _ _
      have readSrc := readElement_inside addressed
        (show indexSrc + rounds < _ by omega)
      have readDst := readElement_inside addressed
        (show indexDst + rounds < _ by omega)
      rw [List.getElem?_eq_getElem (by omega)] at readSrc readDst
      dsimp only
      rw [places, places, drop_take_last inside,
        drop_take_last (show indexSrc + (rounds + 1) ≤ _ by omega),
        copyRounds, readSrc, allAssigned_concat (by simp; omega)]
      dsimp only
      rw [reassigning_load]
      dsimp only
      rw [readDst]
      dsimp only
      rw [reassigning_store]
      have assigned := reassign_value
        ((heap src).elements[indexDst + rounds])
        ((heap src).elements[indexSrc + rounds])
      cases reassigned : Reassign ((heap src).elements[indexDst + rounds])
          ((heap src).elements[indexSrc + rounds]) with
      | mk stored result =>
          rw [reassigned] at assigned
          have last : indexDst + rounds < (heap src).elements.length := by
            omega
          have wrote : writeElements _ _ [stored] = _ :=
            writeElements_inside addressed last
          dsimp only
          rw [wrote]
          cases result with
          | failed hr => simp
          | outside => simp
          | S_OK done =>
              have isElement := assigned rfl
              dsimp only at isElement ⊢
              have step := @inductionHypothesis
                (Function.update heap src { heap src with
                  elements := splice (heap src).elements (indexDst + rounds)
                    [stored] })
                (addressed_update addressed last)
                (by rw [length_update last]; omega)
              rw [Function.update_self] at step
              dsimp only at step
              rw [take_drop_splice last (Nat.le_refl _),
                take_drop_splice last (by omega), Function.update_idem] at step
              obtain ⟨copies, needs⟩ := step
              rw [← UInt32.sub_eq_add_neg, ← UInt32.sub_eq_add_neg]
              refine ⟨fun pairs => ?_, fun succeeds => ⟨needs succeeds, rfl⟩⟩
              have count : (((heap src).elements.drop indexSrc).take
                  rounds).length = rounds := by
                simp
                omega
              have before : splice (splice (heap src).elements
                  (indexDst + _) [stored]) indexDst
                    (((heap src).elements.drop indexSrc).take rounds) = _ :=
                splice_before (by rw [count]; exact last)
              rw [count] at before
              rw [copies pairs.1, before, isElement]

/-- Without a failure of that kind, the rounds never report a range. -/
theorem copyRounds_inRange
    (loads : ∀ state element,
      transfer.load state element ≠ .failed .CLR_E_OUT_OF_RANGE)
    (stores : ∀ slot value,
      (transfer.store slot value).2 ≠ .failed .CLR_E_OUT_OF_RANGE)
    {incr : UInt32}
    {rounds : Nat}
    {state : σ}
    {indexSrc indexDst : UInt32} :
    (copyRounds transfer src dst incr rounds state indexSrc indexDst heap).2 ≠
      .failed .CLR_E_OUT_OF_RANGE := by
  induction rounds generalizing state indexSrc indexDst heap with
  | zero => simp [copyRounds]
  | succ rounds inductionHypothesis =>
      rw [copyRounds]
      cases readElement (heap src) indexSrc with
      | none => simp
      | some element =>
          dsimp only
          have loadInRange := loads state element
          revert loadInRange
          rcases transfer.load state element with ⟨value, later⟩ | hr | _
          · intro _
            dsimp only
            cases readElement (heap dst) indexDst with
            | none => simp
            | some slot =>
                dsimp only
                have storeInRange := stores slot value
                revert storeInRange
                obtain ⟨stored, result⟩ := transfer.store slot value
                intro storeInRange
                cases writeElements (heap dst) indexDst [stored] with
                | none => simp
                | some array =>
                    cases result with
                    | S_OK done => exact inductionHypothesis
                    | failed hr => simpa using storeInRange
                    | outside => simp
          · simp
          · simp

end Rounds

/-! ## What is transferred -/

section Transferred

variable {transfer : Transfer σ} {state : σ}
  {slots elements stored : List Element}

/-- Where every element that is stored is the image of the one that was loaded,
so is what is stored in a range. -/
theorem transferAll_eq_map
    {image : Element → Element}
    (stores : ∀ state element value later slot,
      transfer.load state element = .S_OK (value, later) →
        (transfer.store slot value).2 = .S_OK () →
          (transfer.store slot value).1 = image element)
    (sameLength : slots.length = elements.length)
    (transfers : transferAll transfer state slots elements = some stored) :
    stored = elements.map image := by
  induction elements generalizing slots state stored with
  | nil =>
      rw [List.eq_nil_of_length_eq_zero sameLength, transferAll] at transfers
      · cases transfers
        rfl
      · simp
  | cons element elements inductionHypothesis =>
      cases slots with
      | nil => cases sameLength
      | cons slot slots =>
          rw [transferAll] at transfers
          cases loads : transfer.load state element with
          | failed hr =>
              rw [loads] at transfers
              cases transfers
          | outside =>
              rw [loads] at transfers
              cases transfers
          | S_OK loaded =>
              obtain ⟨value, later⟩ := loaded
              have image := stores state element value later slot loads
              rw [loads] at transfers
              dsimp only at transfers
              revert transfers image
              rcases transfer.store slot value with ⟨kept, _ | _ | _⟩
              · intro transfers isImage
                obtain ⟨rest, restTransfers, isStored⟩ :=
                  Option.map_eq_some_iff.mp transfers
                rw [← isStored, List.map_cons, ← isImage rfl,
                  inductionHypothesis (Nat.succ.inj sameLength) restTransfers]
              · intro transfers
                cases transfers
              · intro transfers
                cases transfers

/-- Assigning elements transfers them all if each one can be assigned. -/
theorem transferAll_reassigning
    (sameLength : slots.length = elements.length) :
    (transferAll reassigning () slots elements).isSome ↔
      AllAssigned slots elements := by
  induction elements generalizing slots with
  | nil =>
      rw [List.eq_nil_of_length_eq_zero sameLength]
      simp [transferAll, AllAssigned]
  | cons element elements inductionHypothesis =>
      cases slots with
      | nil => cases sameLength
      | cons slot slots =>
          have rest := inductionHypothesis (Nat.succ.inj sameLength)
          rw [transferAll, reassigning_load]
          dsimp only
          rw [reassigning_store, AllAssigned, List.zip_cons_cons,
            List.forall_mem_cons, ← AllAssigned, ← rest, ← reassign_ok_iff]
          rcases Reassign slot element with ⟨kept, _ | _ | _⟩
          · simp
          · simp
          · simp

end Transferred

end Arrays

end NanoClr
