import NanoClr.Library.Cells
import Mathlib.Data.List.Nodup
import Mathlib.Tactic.Common

/-!
# Windows of a circular buffer

The places that a circular buffer uses: a number of consecutive places from a
first one on, the last place of the buffer being followed by its first.
-/

namespace NanoClr

/-- The place behind another one. -/
def advance (size place : Nat) : Nat :=
  if place + 1 = size then 0 else place + 1

/-- The places in use, from the first one on. -/
def window (size : Nat) : Nat → Nat → List Nat
  | _, 0 => []
  | start, count + 1 => start :: window size (advance size start) count

/-- The place behind a window. -/
def windowEnd (size : Nat) : Nat → Nat → Nat
  | start, 0 => start
  | start, count + 1 => windowEnd size (advance size start) count

section Windows

variable {size start count : Nat}

theorem advance_lt (isPlace : start < size) : advance size start < size := by
  unfold advance
  split <;> omega

@[simp] theorem length_window : (window size start count).length = count := by
  induction count generalizing start with
  | zero => rfl
  | succ count inductionHypothesis =>
      rw [window, List.length_cons, inductionHypothesis]

theorem window_snoc :
    window size start (count + 1) =
      window size start count ++ [windowEnd size start count] := by
  induction count generalizing start with
  | zero => rfl
  | succ count inductionHypothesis =>
      rw [window, inductionHypothesis]
      rfl

theorem windowEnd_eq (isPlace : start < size) :
    windowEnd size start count = (start + count) % size := by
  induction count generalizing start with
  | zero => exact (Nat.mod_eq_of_lt isPlace).symm
  | succ count inductionHypothesis =>
      rw [windowEnd, inductionHypothesis (advance_lt isPlace)]
      unfold advance
      split
      next wraps =>
        have around : start + (count + 1) = count + size := by omega
        rw [around, Nat.add_mod_right, Nat.zero_add]
      next => rw [Nat.add_assoc, Nat.add_comm 1 count]

theorem window_lt
    (isPlace : start < size)
    {place : Nat}
    (member : place ∈ window size start count) :
    place < size := by
  induction count generalizing start with
  | zero => cases member
  | succ count inductionHypothesis =>
      rcases List.mem_cons.mp member with rfl | member
      · exact isPlace
      · exact inductionHypothesis (advance_lt isPlace) member

theorem mem_window
    (isPlace : start < size)
    {place : Nat} :
    place ∈ window size start count ↔
      ∃ distance < count, place = (start + distance) % size := by
  induction count with
  | zero => simp [window]
  | succ count inductionHypothesis =>
      rw [window_snoc, List.mem_append, inductionHypothesis,
        List.mem_singleton, windowEnd_eq isPlace]
      constructor
      · rintro (⟨distance, less, rfl⟩ | rfl)
        · exact ⟨distance, by omega, rfl⟩
        · exact ⟨count, by omega, rfl⟩
      · rintro ⟨distance, less, rfl⟩
        rcases Nat.lt_succ_iff_lt_or_eq.mp less with less | rfl
        · exact .inl ⟨distance, less, rfl⟩
        · exact .inr rfl

/-- A buffer that is not full has a free place behind its window. -/
theorem windowEnd_not_mem
    (isPlace : start < size)
    (notFull : count < size) :
    windowEnd size start count ∉ window size start count := by
  rw [windowEnd_eq isPlace, mem_window isPlace]
  rintro ⟨distance, less, same⟩
  have distinct : ∀ distance < size,
      (start + distance) % size =
        if start + distance < size then start + distance
        else start + distance - size := by
    intro distance less
    split
    · exact Nat.mod_eq_of_lt ‹_›
    · rw [Nat.mod_eq_sub_mod (by omega), Nat.mod_eq_of_lt (by omega)]
  rw [distinct _ notFull, distinct _ (by omega)] at same
  split at same <;> split at same <;> omega

theorem window_nodup
    (isPlace : start < size)
    (fits : count ≤ size) :
    (window size start count).Nodup := by
  induction count with
  | zero => exact List.nodup_nil
  | succ count inductionHypothesis =>
      rw [window_snoc, ← List.concat_eq_append]
      exact List.Nodup.concat
        (windowEnd_not_mem isPlace fits) (inductionHypothesis (by omega))

theorem windowEnd_snoc :
    windowEnd size start (count + 1) =
      advance size (windowEnd size start count) := by
  induction count generalizing start with
  | zero => rfl
  | succ count inductionHypothesis =>
      rw [windowEnd, inductionHypothesis]
      rfl

theorem windowEnd_add {more : Nat} :
    windowEnd size start (count + more) =
      windowEnd size (windowEnd size start count) more := by
  induction count generalizing start with
  | zero =>
      rw [Nat.zero_add]
      rfl
  | succ count inductionHypothesis =>
      rw [Nat.succ_add, windowEnd, inductionHypothesis]
      rfl

theorem windowEnd_lt (isPlace : start < size) :
    windowEnd size start count < size := by
  rw [windowEnd_eq isPlace]
  exact Nat.mod_lt _ (Nat.zero_lt_of_lt isPlace)

/-- A window in front of the place that the buffer starts again from. -/
theorem window_eq_range (fits : start + count ≤ size) :
    window size start count = List.range' start count := by
  induction count generalizing start with
  | zero => rfl
  | succ count inductionHypothesis =>
      rw [window, List.range'_succ]
      cases count with
      | zero => rfl
      | succ count =>
          have next : advance size start = start + 1 := by
            rw [advance, if_neg (by omega)]
          rw [next, inductionHypothesis (by omega)]

theorem window_add {more : Nat} :
    window size start (count + more) =
      window size start count ++
        window size (windowEnd size start count) more := by
  induction count generalizing start with
  | zero =>
      rw [Nat.zero_add]
      rfl
  | succ count inductionHypothesis =>
      rw [Nat.succ_add, window, inductionHypothesis]
      rfl

/-- A window that goes round is the end and the start of the buffer. -/
theorem window_wraps
    (isPlace : start < size)
    (wraps : size ≤ start + count)
    (fits : count ≤ size) :
    window size start count =
      List.range' start (size - start) ++
        List.range' 0 (start + count - size) := by
  have whole : size - start + (start + count - size) = count := by omega
  have parts : window size start (size - start + (start + count - size)) = _ :=
    window_add
  have front : window size start (size - start) =
      List.range' start (size - start) := window_eq_range (by omega)
  have back : window size 0 (start + count - size) =
      List.range' 0 (start + count - size) := window_eq_range (by omega)
  have atEnd : windowEnd size start (size - start) = 0 := by
    rw [windowEnd_eq isPlace, Nat.add_sub_cancel' (Nat.le_of_lt isPlace),
      Nat.mod_self]
  rw [whole, atEnd, front, back] at parts
  exact parts

theorem window_getElem?
    {index : Nat}
    (inside : index < count) :
    (window size start count)[index]? = some (windowEnd size start index) := by
  induction index generalizing start count with
  | zero =>
      cases count with
      | zero => cases inside
      | succ count => rfl
  | succ index inductionHypothesis =>
      cases count with
      | zero => cases inside
      | succ count =>
          rw [window, List.getElem?_cons_succ, windowEnd]
          exact inductionHypothesis (Nat.lt_of_succ_lt_succ inside)

end Windows

/-! ## Items in a window -/

section Writing

variable
  {β : Type}
  {size start : Nat}
  {memory : Nat → β}
  {items : List β}

theorem map_window_eq_cellsAt
    {count : Nat}
    (inside : start + count ≤ size) :
    (window size start count).map memory = cellsAt memory start count := by
  rw [window_eq_range inside, map_range_eq_cellsAt]

/-- Items that are written in front of the end of a buffer. -/
theorem written_inside
    (inside : start + items.length ≤ size) :
    (window size start items.length).map (writeCells memory start items) =
        items ∧
      ∀ place ∉ window size start items.length,
        writeCells memory start items place = memory place := by
  constructor
  · rw [map_window_eq_cellsAt inside]
    exact holds_writeCells
  · intro place apart
    rw [window_eq_range inside, List.mem_range'_1] at apart
    apply writeCells_outside
    omega

/-- Items that are written round the end of a buffer. -/
theorem written_round
    (isPlace : start < size)
    (round : size ≤ start + items.length)
    (fits : items.length ≤ size) :
    (window size start items.length).map
        (writeCells (writeCells memory start (items.take (size - start))) 0
          (items.drop (size - start))) =
        items ∧
      ∀ place ∉ window size start items.length,
        writeCells (writeCells memory start (items.take (size - start))) 0
          (items.drop (size - start)) place = memory place := by
  have front : (items.take (size - start)).length = size - start := by
    rw [List.length_take]
    omega
  have back : (items.drop (size - start)).length =
      start + items.length - size := by
    rw [List.length_drop]
    omega
  rw [window_wraps isPlace round fits]
  constructor
  · have first : Holds (writeCells memory start (items.take (size - start)))
        start (items.take (size - start)) := holds_writeCells
    have second : Holds
        (writeCells (writeCells memory start (items.take (size - start))) 0
          (items.drop (size - start)))
        0 (items.drop (size - start)) := holds_writeCells
    have kept : cellsAt
        (writeCells (writeCells memory start (items.take (size - start))) 0
          (items.drop (size - start)))
        start (size - start) =
          cellsAt (writeCells memory start (items.take (size - start)))
            start (size - start) := by
      apply cellsAt_congr
      intro place from_ below
      apply writeCells_outside
      omega
    rw [Holds, front] at first
    rw [Holds, back] at second
    rw [List.map_append, map_range_eq_cellsAt, map_range_eq_cellsAt, second,
      kept, first, List.take_append_drop]
  · intro place apart
    rw [List.mem_append, List.mem_range'_1, List.mem_range'_1] at apart
    rw [writeCells_outside (by omega), writeCells_outside (by omega)]

end Writing

/-- The items of a list at consecutive places. -/
theorem map_range_getElem?
    {β : Type}
    {items : List β}
    {start count : Nat}
    (fits : start + count ≤ items.length) :
    (List.range' start count).map (items[·]?) =
      ((items.drop start).take count).map some := by
  apply List.ext_getElem?
  intro place
  rw [List.getElem?_map, List.getElem?_map, List.getElem?_take]
  by_cases inside : place < count
  · rw [List.getElem?_range' inside, if_pos inside, List.getElem?_drop,
      List.getElem?_eq_getElem (by omega)]
    simp
  · rw [List.getElem?_eq_none (by simpa using inside), if_neg inside]
    rfl

end NanoClr
