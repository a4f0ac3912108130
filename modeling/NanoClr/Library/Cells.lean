import Mathlib.Algebra.Ring.Int.Defs
import Mathlib.Algebra.Ring.Nat
import Mathlib.Logic.Function.Basic
import Mathlib.Tactic.Common

/-!
# Sequences in memory

What a memory holds from an address on, and what it holds once a sequence is
written there.
-/

namespace NanoClr

section Cells

variable {α : Type}

/-- The cells from an address on. -/
def cellsAt (memory : Nat → α) (address : Nat) : Nat → List α
  | 0 => []
  | count + 1 => memory address :: cellsAt memory (address + 1) count

/-- The memory holds a sequence from an address on. -/
def Holds (memory : Nat → α) (address : Nat) (values : List α) : Prop :=
  cellsAt memory address values.length = values

/-- The memory after a sequence is written to it. -/
def writeCells (memory : Nat → α) (address : Nat) : List α → Nat → α
  | [] => memory
  | value :: values =>
      writeCells (Function.update memory address value) (address + 1) values

attribute [local simp] cellsAt writeCells

variable
  {memory : Nat → α}
  {address place : Nat}
  {value : α}
  {values left right : List α}

@[simp] theorem length_cellsAt (count : Nat) :
    (cellsAt memory address count).length = count := by
  induction count generalizing address with
  | zero => rfl
  | succ count inductionHypothesis =>
      rw [cellsAt, List.length_cons, inductionHypothesis]

theorem cellsAt_add (first second : Nat) :
    cellsAt memory address (first + second) =
      cellsAt memory address first ++
        cellsAt memory (address + first) second := by
  induction first generalizing address with
  | zero =>
      rw [Nat.zero_add]
      rfl
  | succ first inductionHypothesis =>
      rw [Nat.add_right_comm, cellsAt, cellsAt, inductionHypothesis,
        List.cons_append, Nat.add_assoc address, Nat.add_comm 1]

theorem cellsAt_congr
    {other : Nat → α}
    {count : Nat}
    (same : ∀ place, address ≤ place → place < address + count →
      memory place = other place) :
    cellsAt memory address count = cellsAt other address count := by
  induction count generalizing address with
  | zero => rfl
  | succ count inductionHypothesis =>
      rw [cellsAt, cellsAt, same address (Nat.le_refl _) (by omega)]
      rw [inductionHypothesis fun place from_ below =>
        same place (by omega) (by omega)]

@[simp] theorem holds_nil : Holds memory address [] := rfl

@[simp] theorem holds_cons :
    Holds memory address (value :: values) ↔
      memory address = value ∧ Holds memory (address + 1) values := by
  rw [Holds, List.length_cons, cellsAt, List.cons.injEq]
  rfl

theorem holds_append :
    Holds memory address (left ++ right) ↔
      Holds memory address left ∧
        Holds memory (address + left.length) right := by
  induction left generalizing address with
  | nil => simp
  | cons value left inductionHypothesis =>
      rw [List.cons_append, holds_cons, holds_cons, inductionHypothesis,
        List.length_cons, and_assoc, Nat.add_right_comm, Nat.add_assoc]

/-- The values that a memory holds are those of its cells. -/
theorem forall_mem_iff_of_holds
    {P : α → Prop}
    (held : Holds memory address values) :
    (∀ value ∈ values, P value) ↔
      ∀ place, address ≤ place → place < address + values.length →
        P (memory place) := by
  induction values generalizing address with
  | nil =>
      apply iff_of_true
      · exact List.forall_mem_nil P
      · intro place from_ below
        rw [List.length_nil] at below
        omega
  | cons value values inductionHypothesis =>
      rw [holds_cons] at held
      rw [List.forall_mem_cons, inductionHypothesis held.2, ← held.1,
        List.length_cons]
      constructor
      · rintro ⟨first, rest⟩ place from_ below
        by_cases start : place = address
        · rw [start]
          exact first
        · exact rest place (by omega) (by omega)
      · intro all
        refine ⟨all address (Nat.le_refl _) (by omega), ?_⟩
        intro place from_ below
        exact all place (by omega) (by omega)

theorem holds_cellsAt (count : Nat) :
    Holds memory address (cellsAt memory address count) := by
  rw [Holds, length_cellsAt]

theorem holds_iff_getElem? :
    Holds memory address values ↔
      ∀ (index : Nat) (value : α), values[index]? = some value →
        memory (address + index) = value := by
  induction values generalizing address with
  | nil => simp
  | cons first values inductionHypothesis =>
      rw [holds_cons, inductionHypothesis]
      constructor
      · rintro ⟨here, rest⟩ index value isValue
        cases index with
        | zero =>
            rw [List.getElem?_cons_zero, Option.some.injEq] at isValue
            rw [← isValue]
            exact here
        | succ index =>
            rw [List.getElem?_cons_succ] at isValue
            rw [← rest index value isValue]
            congr 1
            omega
      · intro all
        refine ⟨all 0 first rfl, ?_⟩
        intro index value isValue
        rw [← all (index + 1) value isValue]
        congr 1
        omega

theorem writeCells_append :
    writeCells memory address (left ++ right) =
      writeCells (writeCells memory address left) (address + left.length)
        right := by
  induction left generalizing memory address with
  | nil => rfl
  | cons value left inductionHypothesis =>
      rw [List.cons_append, writeCells, writeCells, inductionHypothesis,
        List.length_cons, Nat.add_right_comm, Nat.add_assoc]

theorem writeCells_outside
    (outside : place < address ∨ address + values.length ≤ place) :
    writeCells memory address values place = memory place := by
  induction values generalizing memory address with
  | nil => rfl
  | cons value values inductionHypothesis =>
      rw [List.length_cons] at outside
      rw [writeCells, inductionHypothesis (by omega),
        Function.update_of_ne (by omega)]

theorem holds_writeCells :
    Holds (writeCells memory address values) address values := by
  induction values generalizing memory address with
  | nil => exact holds_nil
  | cons value values inductionHypothesis =>
      rw [holds_cons]
      refine ⟨?_, inductionHypothesis⟩
      rw [writeCells, writeCells_outside (Or.inl (Nat.lt_succ_self _)),
        Function.update_self]

theorem map_range_eq_cellsAt (count : Nat) :
    (List.range' address count).map memory = cellsAt memory address count := by
  induction count generalizing address with
  | zero => rfl
  | succ count inductionHypothesis =>
      rw [List.range'_succ, List.map_cons, inductionHypothesis, cellsAt]

end Cells

end NanoClr
