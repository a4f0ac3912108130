import NanoClr.Delegates.DelegateList

/-!
# The algebra of delegates

What combining and removing make of the live entries of their operands. The
operands stay as they are. A list whose entries have all been collected is not
treated as an empty one.
-/

namespace NanoClr

namespace Delegates

namespace DelegateMemory

/-- The entries that have not been collected. -/
def live (memory : DelegateMemory) (reference : Reference) : List Nat :=
  (memory.entries reference).reduceOption

/-- A reference to something in memory. -/
def Valid (memory : DelegateMemory) : Reference → Prop
  | .list address => address < memory.lists.length
  | _ => True

/-- Everything that was in memory is as before. -/
structure Extends (memory after : DelegateMemory) : Prop where
  delegates : after.delegates = memory.delegates
  lists : memory.lists <+: after.lists

/-- The entries without the first one that calls the same as a delegate. -/
def withoutEntry
    (memory : DelegateMemory)
    (entries : List Nat)
    (dlg : Nat) : List Nat :=
  entries.eraseP fun ptr => memory.sameTarget ptr dlg

/-- The entries of one list without those of another. -/
def withoutEntries
    (memory : DelegateMemory)
    (entries removed : List Nat) : List Nat :=
  removed.foldl memory.withoutEntry entries

/-- A list none of whose entries is alive. -/
def Emptied (memory : DelegateMemory) (reference : Reference) : Prop :=
  reference ≠ .null ∧ memory.live reference = []

/-- A list of several entries with one that is alive, which is removed; it does
not become a delegate, as a strong list of two entries does. -/
structure LosesLast
    (memory : DelegateMemory)
    (reference : Reference)
    (dlg : Nat) : Prop where
  last : ∃ ptr, memory.live reference = [ptr] ∧ memory.sameTarget ptr dlg = true
  several : 1 < (memory.entries reference).length
  keepsList : ¬ ((memory.entries reference).length = 2 ∧
    memory.flags reference &&& c_Weak = 0)

section Memory

variable
  {memory after : DelegateMemory}
  {reference : Reference}
  {address dlg : Nat}

theorem Extends.refl : Extends memory memory := ⟨rfl, List.prefix_rfl⟩

theorem Extends.trans
    {third : DelegateMemory}
    (first : Extends memory after)
    (second : Extends after third) :
    Extends memory third :=
  ⟨second.delegates.trans first.delegates, first.lists.trans second.lists⟩

theorem Extends.listAt
    (extends_ : Extends memory after)
    (inside : address < memory.lists.length) :
    after.listAt address = memory.listAt address := by
  have ⟨more, same⟩ := extends_.lists
  rw [DelegateMemory.listAt, DelegateMemory.listAt, ← same,
    List.getD_eq_getElem?_getD, List.getD_eq_getElem?_getD,
    List.getElem?_append_left inside]

theorem Extends.entries
    (extends_ : Extends memory after)
    (valid : memory.Valid reference) :
    after.entries reference = memory.entries reference := by
  cases reference with
  | null => rfl
  | delegate address => rfl
  | list address =>
      rw [DelegateMemory.entries, DelegateMemory.entries,
        extends_.listAt valid]

theorem Extends.live
    (extends_ : Extends memory after)
    (valid : memory.Valid reference) :
    after.live reference = memory.live reference := by
  rw [DelegateMemory.live, DelegateMemory.live, extends_.entries valid]

theorem Extends.sameTarget
    (extends_ : Extends memory after)
    (ptr dlg : Nat) :
    after.sameTarget ptr dlg = memory.sameTarget ptr dlg := by
  rw [DelegateMemory.sameTarget, DelegateMemory.sameTarget, extends_.delegates]

theorem Extends.flags
    (extends_ : Extends memory after)
    (valid : memory.Valid reference) :
    after.flags reference = memory.flags reference := by
  cases reference with
  | null => rfl
  | delegate address => rfl
  | list address =>
      rw [DelegateMemory.flags, DelegateMemory.flags, extends_.listAt valid]

theorem Extends.losesLast
    (extends_ : Extends memory after)
    (valid : memory.Valid reference) :
    after.LosesLast reference dlg ↔ memory.LosesLast reference dlg := by
  constructor
  · rintro ⟨last, several, keepsList⟩
    rw [extends_.live valid] at last
    rw [extends_.entries valid] at several keepsList
    rw [extends_.flags valid] at keepsList
    simp only [extends_.sameTarget] at last
    exact ⟨last, several, keepsList⟩
  · rintro ⟨last, several, keepsList⟩
    rw [← extends_.live valid] at last
    rw [← extends_.entries valid] at several keepsList
    rw [← extends_.flags valid] at keepsList
    simp only [← extends_.sameTarget] at last
    exact ⟨last, several, keepsList⟩

theorem Extends.withoutEntry (extends_ : Extends memory after) :
    after.withoutEntry = memory.withoutEntry := by
  funext entries dlg
  rw [DelegateMemory.withoutEntry, DelegateMemory.withoutEntry]
  simp only [extends_.sameTarget]

theorem Extends.withoutEntries
    (extends_ : Extends memory after)
    (entries removed : List Nat) :
    after.withoutEntries entries removed =
      memory.withoutEntries entries removed := by
  rw [DelegateMemory.withoutEntries, DelegateMemory.withoutEntries,
    extends_.withoutEntry]

end Memory

end DelegateMemory

open DelegateMemory

/-! ## Creating a list -/

section CreateInstance

variable
  {extracts : DelegateMemory → Nat → Bool}
  {memory : DelegateMemory}
  {newNum : Nat}
  {dlgListDst : DelegateList}

/-- A list that is created stands in new memory. -/
structure Created
    (memory : DelegateMemory)
    (dlgListDst : DelegateList)
    (changed : Changed) : Prop where
  extends_ : Extends memory changed.memory
  isList : ∃ address, changed.reference = .list address
  valid : changed.memory.Valid changed.reference
  entries : changed.memory.entries changed.reference = dlgListDst.delegates

theorem created
    (ok : (CreateInstance extracts memory newNum dlgListDst).hr = .S_OK) :
    Created memory dlgListDst
      (CreateInstance extracts memory newNum dlgListDst) := by
  unfold CreateInstance at ok ⊢
  split at ok
  case isTrue enough =>
    rw [if_pos enough]
    refine ⟨⟨rfl, List.prefix_append _ _⟩, ⟨_, rfl⟩, ?_, ?_⟩
    · show memory.lists.length < (memory.lists ++ [dlgListDst]).length
      rw [List.length_append]
      exact Nat.lt_succ_self _
    · rw [DelegateMemory.entries, listAt, List.getD_eq_getElem?_getD,
        List.getElem?_concat_length, Option.getD_some]
  case isFalse => cases ok

end CreateInstance

/-! ## Entries -/

section Entries

variable {q : Nat → Bool} {entries : List (Option Nat)}

@[simp] theorem reduceOption_copyAndCompress :
    (CopyAndCompress entries).reduceOption = entries.reduceOption := by
  induction entries with
  | nil => rfl
  | cons entry entries inductionHypothesis =>
      rw [CopyAndCompress] at inductionHypothesis ⊢
      cases entry with
      | none =>
          rw [List.filter_cons_of_neg Bool.false_ne_true, inductionHypothesis,
            List.reduceOption_cons_of_none]
      | some address =>
          rw [List.filter_cons_of_pos rfl, List.reduceOption_cons_of_some,
            List.reduceOption_cons_of_some, inductionHypothesis]

theorem length_copyAndCompress :
    (CopyAndCompress entries).length = entries.reduceOption.length := by
  induction entries with
  | nil => rfl
  | cons entry entries inductionHypothesis =>
      rw [CopyAndCompress] at inductionHypothesis ⊢
      cases entry with
      | none =>
          rw [List.filter_cons_of_neg Bool.false_ne_true, inductionHypothesis,
            List.reduceOption_cons_of_none]
      | some address =>
          rw [List.filter_cons_of_pos rfl, List.reduceOption_cons_of_some,
            List.length_cons, List.length_cons, inductionHypothesis]

/-- The entries around the first match. -/
theorem reduceOption_around :
    (entries.take (entries.findIdx fun ptr => ptr.any q)).reduceOption ++
        (entries.drop
          (entries.findIdx (fun ptr => ptr.any q) + 1)).reduceOption =
      entries.reduceOption.eraseP q := by
  induction entries with
  | nil => rfl
  | cons entry entries inductionHypothesis =>
      rw [List.findIdx_cons]
      cases entry with
      | none =>
          rw [Option.any_none, cond_false, List.take_succ_cons,
            List.drop_succ_cons, List.reduceOption_cons_of_none,
            List.reduceOption_cons_of_none, inductionHypothesis]
      | some address =>
          rw [Option.any_some, List.reduceOption_cons_of_some]
          cases matched : q address with
          | true =>
              rw [cond_true, List.eraseP_cons_of_pos matched]
              rfl
          | false =>
              rw [cond_false, List.take_succ_cons, List.drop_succ_cons,
                List.reduceOption_cons_of_some, List.cons_append,
                inductionHypothesis,
                List.eraseP_cons_of_neg (Bool.eq_false_iff.mp matched)]

/-- Without a match every entry stays. -/
theorem eraseP_of_findIdx
    (none_ : entries.findIdx (fun ptr => ptr.any q) = entries.length) :
    ∀ ptr ∈ entries.reduceOption, ¬ q ptr = true := by
  intro ptr member matched
  have all := List.findIdx_eq_length.mp none_
  have entry := all (some ptr) (List.reduceOption_mem_iff.mp member)
  rw [Option.any_some, matched] at entry
  cases entry

theorem exists_of_findIdx
    (found : entries.findIdx (fun ptr => ptr.any q) ≠ entries.length) :
    ∃ ptr ∈ entries.reduceOption, q ptr = true := by
  have ⟨entry, member, matched⟩ := List.findIdx_lt_length.mp
    (Nat.lt_of_le_of_ne List.findIdx_le_length found)
  cases entry with
  | none => cases matched
  | some ptr => exact ⟨ptr, List.reduceOption_mem_iff.mpr member, matched⟩

/-- Of two entries, the other one is kept. -/
theorem reduceOption_other
    (two : entries.length = 2)
    (found : entries.findIdx (fun ptr => ptr.any q) ≠ entries.length) :
    [entries.getD (1 - entries.findIdx (fun ptr => ptr.any q))
        none].reduceOption = entries.reduceOption.eraseP q := by
  rw [← reduceOption_around]
  match entries, two with
  | [first, second], _ =>
      generalize place : [first, second].findIdx _ = num at found ⊢
      have small : num ≤ 2 := by
        rw [← place]
        exact List.findIdx_le_length
      match num, found, small with
      | 0, _, _ => rfl
      | 1, _, _ =>
          rw [show [first, second].drop (1 + 1) = [] from rfl,
            List.reduceOption_nil, List.append_nil]
          rfl
      | 2, found, _ => exact absurd rfl found

end Entries

/-! ## One step -/

section Step

variable
  {extracts : DelegateMemory → Nat → Bool}
  {memory : DelegateMemory}
  {delegateSrc : Reference}
  {delegateTarget : Nat}
  {fWeak : Bool}

/-- A step leaves what was there and gives these live entries. -/
structure Step
    (memory : DelegateMemory)
    (entries : List Nat)
    (changed : Changed) : Prop where
  extends_ : Extends memory changed.memory
  valid : changed.memory.Valid changed.reference
  live : changed.memory.live changed.reference = entries

theorem Created.step
    {dlgListDst : DelegateList}
    {changed : Changed}
    (created_ : Created memory dlgListDst changed) :
    Step memory dlgListDst.delegates.reduceOption changed where
  extends_ := created_.extends_
  valid := created_.valid
  live := by
    rw [DelegateMemory.live, created_.entries]

/-- A delegate is added behind the live entries. -/
theorem combine_step
    (ok : (changeDelegate extracts memory delegateSrc delegateTarget true
      fWeak).hr = .S_OK) :
    Step memory (memory.live delegateSrc ++ [delegateTarget])
      (changeDelegate extracts memory delegateSrc delegateTarget true
        fWeak) := by
  unfold changeDelegate at ok ⊢
  dsimp only at ok ⊢
  rw [if_pos rfl] at ok ⊢
  split at ok
  case isTrue empty =>
    rw [if_pos empty]
    refine ⟨.refl, trivial, ?_⟩
    rw [DelegateMemory.live, DelegateMemory.live,
      List.length_eq_zero_iff.mp empty.1]
    rfl
  case isFalse some =>
    rw [if_neg some]
    have step := (created ok).step
    rw [List.reduceOption_append, reduceOption_copyAndCompress] at step
    exact step

theorem length_withoutEntry
    {entries : List Nat}
    {ptr : Nat}
    (member : ptr ∈ entries)
    (matched : memory.sameTarget ptr delegateTarget = true) :
    (memory.withoutEntry entries delegateTarget).length = entries.length - 1 :=
  List.length_eraseP_of_mem (p := fun ptr =>
    memory.sameTarget ptr delegateTarget) member matched

/-- Nothing is left when the only entry is taken out. -/
theorem withoutEntry_eq_nil_iff
    {entries : List Nat}
    (found : ∃ ptr ∈ entries, memory.sameTarget ptr delegateTarget = true) :
    memory.withoutEntry entries delegateTarget = [] ↔
      ∃ ptr, entries = [ptr] ∧
        memory.sameTarget ptr delegateTarget = true := by
  have ⟨ptr, member, matched⟩ := found
  have length := length_withoutEntry member matched
  constructor
  · intro nothing
    rw [nothing, List.length_nil] at length
    have positive := List.length_pos_of_mem member
    have ⟨only, single⟩ := List.length_eq_one_iff.mp
      (show entries.length = 1 by omega)
    rw [single, List.mem_singleton] at member
    exact ⟨only, single, by rw [← member]; exact matched⟩
  · rintro ⟨only, single, matches_⟩
    rw [single]
    apply List.length_eq_zero_iff.mp
    rw [length_withoutEntry (List.mem_singleton_self only) matches_]
    rfl

/-- What a step that removes does: nothing without a match, and otherwise it
leaves only entries that are alive. -/
structure Removed
    (memory : DelegateMemory)
    (delegateSrc : Reference)
    (delegateTarget : Nat)
    (changed : Changed) : Prop where
  step : Step memory
    (memory.withoutEntry (memory.live delegateSrc) delegateTarget) changed
  emptied : changed.memory.Emptied changed.reference ↔
    memory.Emptied delegateSrc ∨ memory.LosesLast delegateSrc delegateTarget
  matched : changed.reference = delegateSrc ∧
      (∀ ptr ∈ memory.live delegateSrc,
        ¬ memory.sameTarget ptr delegateTarget = true) ∨
    (changed.memory.entries changed.reference).length =
        (changed.memory.live changed.reference).length ∧
      ∃ ptr ∈ memory.live delegateSrc,
        memory.sameTarget ptr delegateTarget = true

theorem not_emptied_of_mem
    {ptr : Nat}
    (member : ptr ∈ memory.live delegateSrc) :
    ¬ memory.Emptied delegateSrc := by
  intro emptied
  rw [emptied.2] at member
  cases member

theorem live_referenceOf (entry : Option Nat) :
    memory.live (referenceOf entry) = [entry].reduceOption := by
  cases entry with
  | none => rfl
  | some ptr => rfl

theorem not_emptied_referenceOf (entry : Option Nat) :
    ¬ memory.Emptied (referenceOf entry) := by
  intro emptied
  cases entry with
  | none => exact emptied.1 rfl
  | some ptr => cases emptied.2

theorem valid_referenceOf (entry : Option Nat) :
    memory.Valid (referenceOf entry) := by
  cases entry with
  | none => trivial
  | some ptr => trivial

theorem length_referenceOf (entry : Option Nat) :
    (memory.entries (referenceOf entry)).length =
      (memory.live (referenceOf entry)).length := by
  cases entry with
  | none => rfl
  | some ptr => rfl

theorem remove_step
    (valid : memory.Valid delegateSrc)
    (ok : (changeDelegate extracts memory delegateSrc delegateTarget false
      fWeak).hr = .S_OK) :
    Removed memory delegateSrc delegateTarget
      (changeDelegate extracts memory delegateSrc delegateTarget false
        fWeak) := by
  unfold changeDelegate at ok ⊢
  dsimp only at ok ⊢
  rw [if_neg Bool.false_ne_true] at ok ⊢
  split at ok
  case isTrue none_ =>
    have unmatched : ∀ ptr ∈ memory.live delegateSrc,
        ¬ memory.sameTarget ptr delegateTarget = true :=
      eraseP_of_findIdx none_
    rw [if_pos none_]
    refine ⟨⟨.refl, valid, ?_⟩, ?_, Or.inl ⟨rfl, unmatched⟩⟩
    · rw [withoutEntry, List.eraseP_of_forall_not unmatched]
    · constructor
      · exact Or.inl
      · rintro (emptied | loses)
        · exact emptied
        · have ⟨ptr, single, matched⟩ := loses.last
          refine absurd matched (unmatched ptr ?_)
          rw [single]
          exact List.mem_singleton_self ptr
  case isFalse some =>
    have found : ∃ ptr ∈ memory.live delegateSrc,
        memory.sameTarget ptr delegateTarget = true :=
      exists_of_findIdx some
    have ⟨match_, member, matched⟩ := found
    rw [if_neg some]
    split at ok
    case isTrue two =>
      rw [if_pos two]
      refine ⟨⟨.refl, valid_referenceOf _, ?_⟩, ?_,
        Or.inr ⟨length_referenceOf _, found⟩⟩
      · exact (live_referenceOf _).trans (reduceOption_other two.1 some)
      · apply iff_of_false (not_emptied_referenceOf _)
        rintro (emptied | loses)
        · exact not_emptied_of_mem member emptied
        · exact loses.keepsList two
    case isFalse notTwo =>
      rw [if_neg notTwo]
      split at ok
      case isTrue one =>
        rw [if_pos one]
        have few := List.reduceOption_length_le (memory.entries delegateSrc)
        have length := length_withoutEntry member matched
        refine ⟨⟨.refl, trivial, ?_⟩, ?_, Or.inr ⟨rfl, found⟩⟩
        · symm
          apply List.length_eq_zero_iff.mp
          rw [length, DelegateMemory.live]
          omega
        · apply iff_of_false
          · exact fun emptied => emptied.1 rfl
          · rintro (emptied | loses)
            · exact not_emptied_of_mem member emptied
            · have several := loses.several
              omega
      case isFalse notOne =>
        rw [if_neg notOne]
        have create := created ok
        have step := create.step
        rw [List.reduceOption_append, reduceOption_copyAndCompress,
          reduceOption_copyAndCompress, reduceOption_around] at step
        have ⟨address, isList⟩ := create.isList
        have filled := create.entries
        refine ⟨step, ?_, Or.inr ⟨?_, found⟩⟩
        · constructor
          · intro emptied
            have nothing := step.live.symm.trans emptied.2
            have last := (withoutEntry_eq_nil_iff found).mp nothing
            have several : 0 < (memory.live delegateSrc).length :=
              List.length_pos_of_mem member
            have few := List.reduceOption_length_le (memory.entries delegateSrc)
            rw [DelegateMemory.live] at several
            exact Or.inr ⟨last, by omega, notTwo⟩
          · rintro (emptied | loses)
            · exact absurd emptied (not_emptied_of_mem member)
            · refine ⟨?_, ?_⟩
              · rw [isList]
                exact Reference.noConfusion
              · exact step.live.trans
                  ((withoutEntry_eq_nil_iff found).mpr loses.last)
        · rw [DelegateMemory.live, filled, List.length_append,
            List.reduceOption_append, List.length_append,
            length_copyAndCompress, length_copyAndCompress,
            reduceOption_copyAndCompress, reduceOption_copyAndCompress]

end Step

/-! ## Runs -/

section Run

variable
  {extracts : DelegateMemory → Nat → Bool}
  {fCombine fWeak : Bool}
  {memory : DelegateMemory}
  {intermediate reference : Reference}
  {newDlgs : List (Option Nat)}

/-- Without live entries the loop does nothing. -/
theorem changeEach_none (none_ : newDlgs.reduceOption = []) :
    changeEach extracts fCombine fWeak memory intermediate reference newDlgs =
      { memory := memory, reference := reference, hr := .S_OK } := by
  induction newDlgs with
  | nil => rfl
  | cons entry newDlgs inductionHypothesis =>
      cases entry with
      | none =>
          rw [List.reduceOption_cons_of_none] at none_
          exact inductionHypothesis none_
      | some dlg =>
          rw [List.reduceOption_cons_of_some] at none_
          cases none_

/-- A pass of the loop over a live entry. -/
theorem changeEach_some
    {dlg : Nat}
    (ok : (changeEach extracts fCombine fWeak memory intermediate reference
      (some dlg :: newDlgs)).hr = .S_OK) :
    (changeDelegate extracts memory intermediate dlg fCombine fWeak).hr =
        .S_OK ∧
      changeEach extracts fCombine fWeak memory intermediate reference
          (some dlg :: newDlgs) =
        changeEach extracts fCombine fWeak
          (changeDelegate extracts memory intermediate dlg fCombine
            fWeak).memory
          (changeDelegate extracts memory intermediate dlg fCombine
            fWeak).reference
          (changeDelegate extracts memory intermediate dlg fCombine
            fWeak).reference newDlgs := by
  rw [changeEach] at ok ⊢
  split at ok
  case isTrue passed =>
    rw [if_pos passed]
    exact ⟨passed, rfl⟩
  case isFalse failed => exact absurd ok failed

/-- The live entries of a list are added in their order. -/
theorem combine_run
    (valid : memory.Valid intermediate)
    (given : newDlgs.reduceOption ≠ [] ∨ reference = intermediate)
    (ok : (changeEach extracts true fWeak memory intermediate reference
      newDlgs).hr = .S_OK) :
    Step memory (memory.live intermediate ++ newDlgs.reduceOption)
      (changeEach extracts true fWeak memory intermediate reference
        newDlgs) := by
  induction newDlgs generalizing memory intermediate reference with
  | nil =>
      have same : reference = intermediate :=
        given.resolve_left fun some => some rfl
      rw [same, List.reduceOption_nil, List.append_nil]
      exact ⟨.refl, valid, rfl⟩
  | cons entry newDlgs inductionHypothesis =>
      cases entry with
      | none =>
          rw [List.reduceOption_cons_of_none] at given ⊢
          exact inductionHypothesis valid given ok
      | some dlg =>
          have ⟨passed, same⟩ := changeEach_some ok
          have step := combine_step passed
          rw [same] at ok ⊢
          have rest := inductionHypothesis step.valid (Or.inr rfl) ok
          refine ⟨step.extends_.trans rest.extends_, rest.valid, ?_⟩
          rw [rest.live, step.live, List.reduceOption_cons_of_some,
            List.append_assoc, List.singleton_append]

/-- Once a match has been taken out, only that one can have been the last. -/
theorem losesLast_congr
    {dlg : Nat}
    {changed : Changed}
    {dlgs : List Nat}
    (compact : (changed.memory.entries changed.reference).length =
      (changed.memory.live changed.reference).length)
    (found : ∃ ptr ∈ memory.live intermediate,
      memory.sameTarget ptr dlg = true) :
    memory.LosesLast intermediate dlg ∨
        (∃ next ∈ dlgs, changed.memory.LosesLast changed.reference next) ↔
      memory.LosesLast intermediate dlg ∨
        ∃ next ∈ dlgs, memory.LosesLast intermediate next := by
  have ⟨ptr, member, matched⟩ := found
  constructor
  · rintro (loses | ⟨next, _, loses⟩)
    · exact Or.inl loses
    · have ⟨last, single, _⟩ := loses.last
      have several := loses.several
      rw [compact, single, List.length_singleton] at several
      exact absurd several (Nat.lt_irrefl 1)
  · rintro (loses | ⟨next, _, loses⟩)
    · exact Or.inl loses
    · have ⟨last, single, _⟩ := loses.last
      rw [single, List.mem_singleton] at member
      rw [member] at matched
      exact Or.inl ⟨⟨last, single, matched⟩, loses.several, loses.keepsList⟩

/-- The live entries of a list are taken out one by one. -/
theorem remove_run
    (valid : memory.Valid intermediate)
    (given : newDlgs.reduceOption ≠ [] ∨ reference = intermediate)
    (ok : (changeEach extracts false fWeak memory intermediate reference
      newDlgs).hr = .S_OK) :
    let changed := changeEach extracts false fWeak memory intermediate
      reference newDlgs
    Step memory
        (memory.withoutEntries (memory.live intermediate)
          newDlgs.reduceOption) changed ∧
      (changed.memory.Emptied changed.reference ↔
        memory.Emptied intermediate ∨
          ∃ dlg ∈ newDlgs.reduceOption, memory.LosesLast intermediate dlg) := by
  induction newDlgs generalizing memory intermediate reference with
  | nil =>
      have same : reference = intermediate :=
        given.resolve_left fun some => some rfl
      rw [same]
      refine ⟨⟨.refl, valid, rfl⟩, ?_⟩
      constructor
      · exact Or.inl
      · rintro (emptied | ⟨dlg, member, _⟩)
        · exact emptied
        · cases member
  | cons entry newDlgs inductionHypothesis =>
      cases entry with
      | none =>
          rw [List.reduceOption_cons_of_none] at given ⊢
          exact inductionHypothesis valid given ok
      | some dlg =>
          have ⟨passed, same⟩ := changeEach_some ok
          have removed := remove_step valid passed
          rw [same] at ok ⊢
          have step := removed.step
          have ⟨rest, emptied⟩ := inductionHypothesis step.valid (Or.inr rfl) ok
          refine ⟨⟨step.extends_.trans rest.extends_, rest.valid, ?_⟩, ?_⟩
          · rw [rest.live, step.live, step.extends_.withoutEntries,
              List.reduceOption_cons_of_some]
            rfl
          · rw [emptied, removed.emptied, List.reduceOption_cons_of_some,
              List.exists_mem_cons_iff, or_assoc]
            rcases removed.matched with ⟨kept, _⟩ | ⟨compact, found⟩
            · rw [kept]
              simp only [step.extends_.losesLast valid]
            · exact or_congr_right (losesLast_congr compact found)

end Run

/-! ## Operations -/

/-- `Combine` gives the live entries of both operands in order, and leaves the
operands as they are. -/
def Combines (memory : DelegateMemory) (a b : Reference) : Prop :=
  ∀ extracts fWeak,
    let changed := Combine extracts memory (.object a) (.object b) fWeak
    changed.hr = .S_OK →
      Extends memory changed.memory ∧
        changed.memory.live changed.reference = memory.live a ++ memory.live b

/-- `Remove` gives the live entries of one operand without those of the other,
null exactly if there is none, and leaves the operands as they are. -/
def Removes (memory : DelegateMemory) (a b : Reference) : Prop :=
  ∀ extracts,
    let changed := Remove extracts memory (.object a) (.object b)
    changed.hr = .S_OK →
      Extends memory changed.memory ∧
        changed.memory.live changed.reference =
          memory.withoutEntries (memory.live a) (memory.live b) ∧
        (changed.reference = .null ↔
          changed.memory.live changed.reference = [])

/-- The operands for which both operations are right. -/
structure Regular (memory : DelegateMemory) (a b : Reference) : Prop where
  target : memory.Emptied b → memory.live a = []
  source : memory.Emptied a → memory.Emptied b
  last : ∀ dlg ∈ memory.live b, ¬ memory.LosesLast a dlg

section Operations

variable
  {extracts : DelegateMemory → Nat → Bool}
  {memory : DelegateMemory}
  {a b : Reference}
  {fCombine fWeak : Bool}

/-- With a target that has been emptied nothing is left of the source. -/
theorem change_emptied (emptied : memory.Emptied b) :
    Change extracts memory (.object a) (.object b) fCombine fWeak =
      { memory := memory, reference := .null, hr := .S_OK } := by
  cases b with
  | null => exact absurd rfl emptied.1
  | delegate address => cases emptied.2
  | list address => exact changeEach_none emptied.2

theorem combine_step_of_not_emptied
    (valid : memory.Valid a)
    (notEmptied : ¬ memory.Emptied b)
    (ok : (Combine extracts memory (.object a) (.object b) fWeak).hr = .S_OK) :
    Step memory (memory.live a ++ memory.live b)
      (Combine extracts memory (.object a) (.object b) fWeak) := by
  cases b with
  | null => exact ⟨.refl, valid, (List.append_nil _).symm⟩
  | delegate address => exact combine_step ok
  | list address =>
      have some : memory.live (.list address) ≠ [] := by
        intro none_
        exact notEmptied ⟨Reference.noConfusion, none_⟩
      exact combine_run valid (Or.inl some) ok

theorem remove_step_of_not_emptied
    (valid : memory.Valid a)
    (notEmptied : ¬ memory.Emptied b)
    (ok : (Remove extracts memory (.object a) (.object b)).hr = .S_OK) :
    let changed := Remove extracts memory (.object a) (.object b)
    Step memory (memory.withoutEntries (memory.live a) (memory.live b))
        changed ∧
      (changed.memory.Emptied changed.reference ↔
        memory.Emptied a ∨
          ∃ dlg ∈ memory.live b, memory.LosesLast a dlg) := by
  cases b with
  | null =>
      refine ⟨⟨.refl, valid, rfl⟩, ?_⟩
      constructor
      · exact Or.inl
      · rintro (emptied | ⟨dlg, member, _⟩)
        · exact emptied
        · cases member
  | delegate address =>
      have removed := remove_step valid ok
      have single : memory.live (.delegate address) = [address] := rfl
      refine ⟨removed.step, ?_⟩
      simp only [single, List.mem_singleton, exists_eq_left]
      exact removed.emptied
  | list address =>
      have some : memory.live (.list address) ≠ [] := by
        intro none_
        exact notEmptied ⟨Reference.noConfusion, none_⟩
      exact remove_run valid (Or.inl some) ok

/-- As long as there is memory, every operation succeeds. -/
theorem changeDelegate_ok
    (enough : ∀ memory newNum, extracts memory newNum = true)
    (delegateTarget : Nat) :
    (changeDelegate extracts memory a delegateTarget fCombine fWeak).hr =
      .S_OK := by
  have create : ∀ newNum dlgListDst,
      (CreateInstance extracts memory newNum dlgListDst).hr = .S_OK := by
    intro newNum dlgListDst
    rw [CreateInstance, if_pos (enough memory newNum)]
  unfold changeDelegate
  dsimp only
  split
  · split
    · rfl
    · exact create _ _
  · split
    · rfl
    · split
      · rfl
      · split
        · rfl
        · exact create _ _

theorem changeEach_ok
    {intermediate reference : Reference}
    {newDlgs : List (Option Nat)}
    (enough : ∀ memory newNum, extracts memory newNum = true) :
    (changeEach extracts fCombine fWeak memory intermediate reference
      newDlgs).hr = .S_OK := by
  induction newDlgs generalizing memory intermediate reference with
  | nil => rfl
  | cons entry newDlgs inductionHypothesis =>
      cases entry with
      | none => exact inductionHypothesis
      | some dlg =>
          rw [changeEach, if_pos (changeDelegate_ok enough dlg)]
          exact inductionHypothesis

theorem change_ok (enough : ∀ memory newNum, extracts memory newNum = true) :
    (Change extracts memory (.object a) (.object b) fCombine fWeak).hr =
      .S_OK := by
  cases b with
  | null => rfl
  | delegate address => exact changeDelegate_ok enough address
  | list address => exact changeEach_ok enough

theorem null_iff_of_not_emptied
    {reference : Reference}
    (notEmptied : ¬ memory.Emptied reference) :
    reference = .null ↔ memory.live reference = [] := by
  constructor
  · intro null
    rw [null]
    rfl
  · intro none_
    by_contra some
    exact notEmptied ⟨some, none_⟩

theorem not_emptied_of_null_iff
    {reference : Reference}
    (null : reference = .null ↔ memory.live reference = []) :
    ¬ memory.Emptied reference :=
  fun emptied => emptied.1 (null.mpr emptied.2)

/-- A target that has been emptied takes the entries of the source along. -/
theorem live_eq_nil_of_combines
    (combines : Combines memory a b)
    (emptied : memory.Emptied b) :
    memory.live a = [] := by
  have ⟨_, live⟩ := combines (fun _ _ => true) false (change_ok fun _ _ => rfl)
  rw [Combine, change_emptied emptied, emptied.2, List.append_nil] at live
  exact live.symm

end Operations

/-- Combining and removing delegates are right exactly for regular operands. -/
theorem delegateAlgebra_iff
    {memory : DelegateMemory}
    {a b : Reference}
    (valid : memory.Valid a) :
    Combines memory a b ∧ Removes memory a b ↔ Regular memory a b := by
  by_cases emptied : memory.Emptied b
  · constructor
    · rintro ⟨combines, _⟩
      refine ⟨fun _ => live_eq_nil_of_combines combines emptied,
        fun _ => emptied, ?_⟩
      rw [emptied.2]
      exact List.forall_mem_nil _
    · intro regular
      have none_ := regular.target emptied
      constructor
      · intro extracts fWeak changed _
        have result : changed = _ := change_emptied emptied
        rw [result, none_, emptied.2]
        exact ⟨.refl, rfl⟩
      · intro extracts changed _
        have result : changed = _ := change_emptied emptied
        rw [result, none_, emptied.2]
        exact ⟨.refl, rfl, iff_of_true rfl rfl⟩
  · constructor
    · rintro ⟨_, removes⟩
      have ok : (Remove (fun _ _ => true) memory (.object a) (.object b)).hr =
          .S_OK := change_ok fun _ _ => rfl
      have ⟨_, _, null⟩ := removes _ ok
      have ⟨_, left⟩ := remove_step_of_not_emptied valid emptied ok
      have notEmptied := not_emptied_of_null_iff null
      rw [left] at notEmptied
      refine ⟨fun holds => absurd holds emptied, ?_, ?_⟩
      · intro holds
        exact absurd (Or.inl holds) notEmptied
      · intro dlg member loses
        exact notEmptied (Or.inr ⟨dlg, member, loses⟩)
    · intro regular
      constructor
      · intro extracts fWeak _ ok
        have step := combine_step_of_not_emptied valid emptied ok
        exact ⟨step.extends_, step.live⟩
      · intro extracts _ ok
        have ⟨step, left⟩ := remove_step_of_not_emptied valid emptied ok
        refine ⟨step.extends_, step.live, ?_⟩
        apply null_iff_of_not_emptied
        rw [left]
        rintro (holds | ⟨dlg, member, loses⟩)
        · exact emptied (regular.source holds)
        · exact regular.last dlg member loses

/-- A memory with some lists; delegates differ in the method they call. -/
def memoryOf (lists : List DelegateList) : DelegateMemory where
  delegates := fun address =>
    { m_cls := 0, m_ftn := UInt32.ofNat address, m_object := none }
  lists := lists

/-- A list of two delegates and one of these. -/
theorem delegateAlgebra_two :
    Combines (memoryOf [⟨0, 0, [some 1, some 2]⟩]) (.list 0) (.delegate 2) ∧
      Removes (memoryOf [⟨0, 0, [some 1, some 2]⟩]) (.list 0)
        (.delegate 2) := by
  have valid : (memoryOf [⟨0, 0, [some 1, some 2]⟩]).Valid (.list 0) :=
    Nat.one_pos
  apply (delegateAlgebra_iff valid).mpr
  refine ⟨?_, ?_, ?_⟩
  · intro emptied
    cases emptied.2
  · intro emptied
    cases emptied.2
  · intro dlg _ loses
    exact loses.keepsList ⟨rfl, rfl⟩

/-- A delegate combined with a weak list whose entry was collected is lost. -/
theorem combine_losesDelegate :
    ¬ (Combines (memoryOf [⟨0, c_Weak, [none]⟩]) (.delegate 1) (.list 0) ∧
      Removes (memoryOf [⟨0, c_Weak, [none]⟩]) (.delegate 1) (.list 0)) := by
  rintro ⟨combines, _⟩
  have nothing := live_eq_nil_of_combines combines
    ⟨Reference.noConfusion, rfl⟩
  cases nothing

end Delegates

end NanoClr
