import Mathlib.Algebra.Ring.Int.Defs
import Mathlib.Algebra.Ring.Nat
import Mathlib.Data.List.Basic
import Mathlib.Tactic.Common

/-!
# Writing a run over a list

A run of items takes the places of as many items of a list, from a start on.
-/

namespace NanoClr

/-- A list with a run of items written over it. -/
def splice {β : Type} (items : List β) (start : Nat) (run : List β) :
    List β :=
  items.take start ++ run ++ items.drop (start + run.length)

/-! ## Items in their places -/

theorem exists_split
    {β : Type}
    {contents : List β}
    {place : Nat}
    (inside : place < contents.length) :
    ∃ before value after, contents = before ++ value :: after ∧
      before.length = place := by
  refine ⟨contents.take place, contents[place], contents.drop (place + 1),
    ?_, ?_⟩
  · rw [← List.drop_eq_getElem_cons inside, List.take_append_drop]
  · rw [List.length_take]
    omega

theorem exists_append
    {β : Type}
    {contents : List β}
    {place : Nat}
    (inside : place ≤ contents.length) :
    ∃ before after, contents = before ++ after ∧ before.length = place := by
  refine ⟨contents.take place, contents.drop place,
    (List.take_append_drop place contents).symm, ?_⟩
  rw [List.length_take]
  omega

/-! ## Runs -/

section Splice

variable {β : Type} {items run before covered after : List β} {start : Nat}

@[simp] theorem splice_nil : splice items start [] = items := by
  simp [splice]

theorem length_splice (inside : start + run.length ≤ items.length) :
    (splice items start run).length = items.length := by
  rw [splice, List.length_append, List.length_append, List.length_take,
    List.length_drop]
  omega

/-- As many items written in the same places are the same items. -/
theorem splice_inj
    {run' : List β}
    (sameLength : run.length = run'.length)
    (same : splice items start run = splice items start run') :
    run = run' := by
  rw [splice, splice, List.append_assoc, List.append_assoc] at same
  exact (List.append_inj (List.append_cancel_left same) sameLength).1

/-- The run takes the places of the items between two others. -/
theorem splice_append
    (isStart : start = before.length)
    (sameLength : run.length = covered.length) :
    splice (before ++ covered ++ after) start run = before ++ run ++ after := by
  have behind : before.length + run.length = (before ++ covered).length := by
    rw [List.length_append, sameLength]
  rw [splice, isStart, behind, List.drop_left, List.append_assoc before,
    List.take_left]

/-- Inside the run are its own items, outside those of the list. -/
theorem getElem?_splice
    (inside : start + run.length ≤ items.length)
    (place : Nat) :
    (splice items start run)[place]? =
      if start ≤ place ∧ place < start + run.length then
        run[place - start]?
      else
        items[place]? := by
  have lengthTake : (items.take start).length = start := by
    rw [List.length_take]
    omega
  unfold splice
  split
  case isTrue within =>
    rw [List.getElem?_append_left (by
        rw [List.length_append, lengthTake]
        omega),
      List.getElem?_append_right (by omega), lengthTake]
  case isFalse outside =>
    by_cases isBefore : place < start
    · rw [List.getElem?_append_left (by
          rw [List.length_append, lengthTake]
          omega),
        List.getElem?_append_left (by omega), List.getElem?_take_of_lt isBefore]
    · rw [List.getElem?_append_right (by
          rw [List.length_append, lengthTake]
          omega),
        List.length_append, lengthTake, List.getElem?_drop]
      congr 1
      omega

/-- Two runs behind each other are one run. -/
theorem splice_splice
    {first second : List β}
    (inside : start + first.length ≤ items.length) :
    splice (splice items start first) (start + first.length) second =
      splice items start (first ++ second) := by
  have lengthTake : (items.take start).length = start := by
    rw [List.length_take]
    omega
  have written : (items.take start ++ first).length =
      start + first.length := by
    rw [List.length_append, lengthTake]
  have behind : start + (first ++ second).length =
      start + first.length + second.length := by
    rw [List.length_append, Nat.add_assoc]
  unfold splice
  rw [List.take_append_of_le_length (by omega), List.take_of_length_le
    (by omega), behind, List.append_assoc (items.take start) first second,
    ← List.append_assoc (items.take start) first second]
  congr 1
  rw [List.drop_append, written, List.drop_eq_nil_of_le (by omega),
    List.nil_append, Nat.add_sub_cancel_left, List.drop_drop]

/-- A run in front of another one makes one run with it. -/
theorem splice_before
    {first second : List β}
    (inside : start + first.length + second.length ≤ items.length) :
    splice (splice items (start + first.length) second) start first =
      splice items start (first ++ second) := by
  apply List.ext_getElem?
  intro place
  have written : (splice items (start + first.length) second).length =
      items.length := length_splice inside
  have whole : (first ++ second).length = first.length + second.length :=
    List.length_append
  rw [getElem?_splice (by omega), getElem?_splice inside,
    getElem?_splice (by omega)]
  grind

/-- Behind a run the items are those of the list. -/
theorem drop_splice
    {place : Nat}
    (inside : start + run.length ≤ items.length)
    (isBehind : start + run.length ≤ place) :
    (splice items start run).drop place = items.drop place := by
  apply List.ext_getElem?
  intro other
  rw [List.getElem?_drop, List.getElem?_drop, getElem?_splice inside,
    if_neg (by omega)]

/-- In front of a run the items are those of the list. -/
theorem take_drop_splice
    {place count : Nat}
    (inside : start + run.length ≤ items.length)
    (isBefore : place + count ≤ start) :
    ((splice items start run).drop place).take count =
      (items.drop place).take count := by
  apply List.ext_getElem?
  intro other
  rw [List.getElem?_take, List.getElem?_take]
  split
  case isFalse => rfl
  case isTrue below =>
    rw [List.getElem?_drop, List.getElem?_drop, getElem?_splice inside,
      if_neg (by omega)]

/-- In the place of the run is the run. -/
theorem splice_range (inside : start + run.length ≤ items.length) :
    ((splice items start run).drop start).take run.length = run := by
  have lengthTake : (items.take start).length = start := by
    rw [List.length_take]
    omega
  have isStart := @List.drop_left _ (items.take start)
    (run ++ items.drop (start + run.length))
  rw [lengthTake] at isStart
  rw [splice, List.append_assoc, isStart, List.take_left]

/-- Writing over a run with itself. -/
theorem splice_self {count : Nat} :
    splice items start ((items.drop start).take count) = items := by
  have rest : items.drop (start + ((items.drop start).take count).length) =
      (items.drop start).drop count := by
    rw [List.length_take, List.length_drop, List.drop_drop]
    rcases Nat.le_total count (items.length - start) with fits | short
    · rw [Nat.min_eq_left fits]
    · rw [Nat.min_eq_right short, List.drop_eq_nil_of_le (by omega),
        List.drop_eq_nil_of_le (by omega)]
  rw [splice, rest, List.append_assoc, List.take_append_drop,
    List.take_append_drop]

end Splice

end NanoClr
