import NanoClr.Library.CircularWindow

/-!
# The queue of hardware events

The circular queue of the hardware layer, by the places of its storage that it
hands out: a push hands out the place behind its window and a pop the first
place of the window.
-/

namespace NanoClr

namespace Interrupts

/-- The queue without its storage. -/
structure Hal_Queue_UnknownSize where
  m_writer : Nat
  m_reader : Nat
  m_size : Nat
  m_full : Bool

namespace Hal_Queue_UnknownSize

/-- `Initialize`: the queue is empty. -/
def Initialize (size : Nat) : Hal_Queue_UnknownSize where
  m_writer := 0
  m_reader := 0
  m_size := size
  m_full := false

variable (queue : Hal_Queue_UnknownSize)

/-- `NumberOfElements`, from the two indices and the flag. -/
def NumberOfElements : Nat :=
  if queue.m_writer < queue.m_reader then
    queue.m_size + queue.m_writer - queue.m_reader
  else if queue.m_full then queue.m_size
  else queue.m_writer - queue.m_reader

/-- `IsEmpty`. -/
def IsEmpty : Bool :=
  queue.m_writer = queue.m_reader ∧ queue.m_full = false

/-- `Push`: the place for a new element, unless the queue is full. -/
def Push : Option Nat × Hal_Queue_UnknownSize :=
  if queue.m_full then
    (none, queue)
  else
    let m_writer := advance queue.m_size queue.m_writer
    (some queue.m_writer, { queue with
      m_writer
      m_full := m_writer = queue.m_reader })

/-- `Peek`: the place of the oldest element. -/
def Peek : Option Nat :=
  if queue.IsEmpty then none else some queue.m_reader

/-- `Pop`: the oldest element leaves, and its place is returned. -/
def Pop : Option Nat × Hal_Queue_UnknownSize :=
  if queue.IsEmpty then
    (none, queue)
  else
    (some queue.m_reader, { queue with
      m_reader := advance queue.m_size queue.m_reader
      m_full := false })

/-- The places in use, oldest first. -/
def slots : List Nat :=
  window queue.m_size queue.m_reader queue.NumberOfElements

/-- Both ends are places of the storage, and they meet in a full queue. -/
structure WellFormed : Prop where
  writer_lt : queue.m_writer < queue.m_size
  reader_lt : queue.m_reader < queue.m_size
  full : queue.m_full = true → queue.m_writer = queue.m_reader

variable {queue}

theorem initialize_wellFormed
    {size : Nat}
    (positive : 0 < size) :
    (Initialize size).WellFormed where
  writer_lt := positive
  reader_lt := positive
  full := fun isFull => by cases isFull

@[simp] theorem initialize_slots (size : Nat) : (Initialize size).slots = [] :=
  rfl

@[simp] theorem length_slots : queue.slots.length = queue.NumberOfElements :=
  length_window

theorem push_full
    (isFull : queue.m_full = true) :
    queue.Push = (none, queue) := by
  rw [Push, isFull]
  rfl

namespace WellFormed

variable (wellFormed : queue.WellFormed)

include wellFormed

theorem numberOfElements_le : queue.NumberOfElements ≤ queue.m_size := by
  have writer := wellFormed.writer_lt
  unfold NumberOfElements
  split
  · omega
  · split <;> omega

theorem full_iff :
    queue.m_full = true ↔ queue.NumberOfElements = queue.m_size := by
  have writer := wellFormed.writer_lt
  have reader := wellFormed.reader_lt
  constructor
  · intro isFull
    have meets := wellFormed.full isFull
    simp [NumberOfElements, meets, isFull]
  · intro all
    by_contra notFull
    unfold NumberOfElements at all
    rw [if_neg notFull] at all
    split at all <;> omega

theorem isEmpty_iff : queue.IsEmpty = true ↔ queue.slots = [] := by
  have writer := wellFormed.writer_lt
  have reader := wellFormed.reader_lt
  rw [← List.length_eq_zero_iff, length_slots, IsEmpty, decide_eq_true_eq]
  unfold NumberOfElements
  cases isFull : queue.m_full with
  | true =>
      have meets := wellFormed.full isFull
      have positive : queue.m_size ≠ 0 := by omega
      simp [meets, positive]
  | false =>
      simp only [and_true, Bool.false_eq_true, if_false]
      split <;> omega

theorem windowEnd_slots :
    windowEnd queue.m_size queue.m_reader queue.NumberOfElements =
      queue.m_writer := by
  have writer := wellFormed.writer_lt
  have reader := wellFormed.reader_lt
  rw [windowEnd_eq reader]
  unfold NumberOfElements
  split
  · have around : queue.m_reader +
        (queue.m_size + queue.m_writer - queue.m_reader) =
          queue.m_writer + queue.m_size := by omega
    rw [around, Nat.add_mod_right, Nat.mod_eq_of_lt writer]
  · split
    next isFull =>
      rw [Nat.add_mod_right, Nat.mod_eq_of_lt reader, wellFormed.full isFull]
    next =>
      rw [Nat.add_sub_cancel' (by omega), Nat.mod_eq_of_lt writer]

theorem slots_nodup : queue.slots.Nodup :=
  window_nodup wellFormed.reader_lt wellFormed.numberOfElements_le

theorem slots_lt {slot : Nat} (member : slot ∈ queue.slots) :
    slot < queue.m_size :=
  window_lt wellFormed.reader_lt member

/-- A full queue uses all places. -/
theorem mem_slots_of_full
    {slot : Nat}
    (isFull : queue.m_full = true)
    (isPlace : slot < queue.m_size) :
    slot ∈ queue.slots := by
  have reader := wellFormed.reader_lt
  rw [slots, wellFormed.full_iff.mp isFull, mem_window reader]
  by_cases behind : queue.m_reader ≤ slot
  · refine ⟨slot - queue.m_reader, by omega, ?_⟩
    rw [Nat.add_sub_cancel' behind, Nat.mod_eq_of_lt isPlace]
  · refine ⟨slot + queue.m_size - queue.m_reader, by omega, ?_⟩
    rw [Nat.add_sub_cancel' (by omega), Nat.add_mod_right,
      Nat.mod_eq_of_lt isPlace]

/-- A push hands out a place that is not in use. -/
theorem push
    (notFull : queue.m_full = false) :
    ∃ later, queue.Push = (some queue.m_writer, later) ∧ later.WellFormed ∧
      later.m_size = queue.m_size ∧ later.slots = queue.slots ++ [queue.m_writer]
        ∧ queue.m_writer ∉ queue.slots := by
  have writer := wellFormed.writer_lt
  have reader := wellFormed.reader_lt
  have fits : queue.NumberOfElements < queue.m_size := by
    refine Nat.lt_of_le_of_ne wellFormed.numberOfElements_le fun all => ?_
    rw [wellFormed.full_iff.mpr all] at notFull
    cases notFull
  refine ⟨{ queue with
      m_writer := advance queue.m_size queue.m_writer
      m_full := advance queue.m_size queue.m_writer = queue.m_reader },
    by simp [Push, notFull], ?_, rfl, ?_, ?_⟩
  · exact {
      writer_lt := advance_lt writer
      reader_lt := reader
      full := fun meets => of_decide_eq_true meets }
  · rw [slots, slots]
    have count : NumberOfElements { queue with
        m_writer := advance queue.m_size queue.m_writer
        m_full := advance queue.m_size queue.m_writer = queue.m_reader } =
        queue.NumberOfElements + 1 := by
      unfold NumberOfElements advance
      simp only [notFull, decide_eq_true_eq, Bool.false_eq_true, if_false]
      split_ifs <;> omega
    rw [count]
    show window queue.m_size queue.m_reader (queue.NumberOfElements + 1) = _
    rw [window_snoc, wellFormed.windowEnd_slots]
  · rw [slots, ← wellFormed.windowEnd_slots]
    exact windowEnd_not_mem reader fits

theorem peek : queue.Peek = queue.slots.head? := by
  unfold Peek
  cases isEmpty : queue.IsEmpty with
  | true =>
      rw [wellFormed.isEmpty_iff.mp isEmpty]
      rfl
  | false =>
      have nonempty : queue.slots ≠ [] := fun empty => by
        rw [wellFormed.isEmpty_iff.mpr empty] at isEmpty
        cases isEmpty
      rw [slots] at nonempty ⊢
      cases count : queue.NumberOfElements with
      | zero =>
          rw [count] at nonempty
          exact absurd rfl nonempty
      | succ count => rfl

theorem head_slots
    (nonempty : queue.slots ≠ []) :
    queue.slots.head? = some queue.m_reader := by
  rw [← wellFormed.peek, Peek, if_neg]
  rwa [wellFormed.isEmpty_iff]

/-- A pop hands out the first place in use. -/
theorem pop
    {slot : Nat}
    {rest : List Nat}
    (inUse : queue.slots = slot :: rest) :
    ∃ later, queue.Pop = (some slot, later) ∧ later.WellFormed ∧
      later.m_size = queue.m_size ∧ later.slots = rest ∧
      later.m_full = false ∧ later.m_writer = queue.m_writer := by
  have writer := wellFormed.writer_lt
  have reader := wellFormed.reader_lt
  have notEmpty : queue.IsEmpty = false := by
    rw [← Bool.not_eq_true, wellFormed.isEmpty_iff, inUse]
    exact List.cons_ne_nil slot rest
  have count : NumberOfElements { queue with
      m_reader := advance queue.m_size queue.m_reader
      m_full := false } + 1 = queue.NumberOfElements := by
    rw [IsEmpty, decide_eq_false_iff_not] at notEmpty
    unfold NumberOfElements advance
    cases isFull : queue.m_full with
    | true =>
        have meets := wellFormed.full isFull
        simp only [meets, Bool.false_eq_true, if_true, if_false]
        split_ifs <;> omega
    | false =>
        simp only [isFull, and_true] at notEmpty
        simp only [Bool.false_eq_true, if_false]
        split_ifs <;> omega
  rw [slots, ← count, window] at inUse
  obtain ⟨rfl, rfl⟩ := List.cons.inj inUse
  refine ⟨{ queue with
      m_reader := advance queue.m_size queue.m_reader
      m_full := false },
    by simp [Pop, notEmpty], ?_, rfl, rfl, rfl, rfl⟩
  exact {
    writer_lt := writer
    reader_lt := advance_lt reader
    full := fun isFull => by cases isFull }

end WellFormed

end Hal_Queue_UnknownSize

end Interrupts

end NanoClr
