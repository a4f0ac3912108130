import NanoClr.Interrupts.ApplicationInvariant

/-!
# The events in order

The events that wait for their transfer are in the order in which they were
saved, also while the records of a dispatcher are removed and the queue is
turned around once.
-/

namespace NanoClr

namespace Interrupts

open CLR_HW_Hardware

/-! ## The waiting events -/

section Waiting

variable (hardware : CLR_HW_Hardware)

/-- The events of the storage; the one on its way from one place to another
counts as having arrived. -/
def CLR_HW_Hardware.memory : Nat → SavedEvent :=
  match hardware.phase with
  | .assigning _ _ testRec newRec =>
      Function.update hardware.eventAt newRec (hardware.eventAt testRec)
  | _ => hardware.eventAt

/-- The events on the queue, oldest first. -/
def CLR_HW_Hardware.contents : List SavedEvent :=
  hardware.m_HalQueue.slots.map hardware.memory

/-- The event that was taken from the queue and is not back on it. -/
def CLR_HW_Hardware.inHand : List SavedEvent :=
  match hardware.phase with
  | .popped _ _ _ event | .pushing _ _ _ event => [event]
  | _ => []

/-- The events in the order in which they will be when the remaining ones have
been turned around. -/
def turned (dispatcher remaining : Nat) (inHand contents : List SavedEvent) :
    List SavedEvent :=
  contents.drop remaining ++
    (inHand ++ contents.take remaining).filter (·.m_context ≠ dispatcher)

/-- The events that are still to be transferred, in their order. -/
def CLR_HW_Hardware.waiting : List SavedEvent :=
  match hardware.phase with
  | .transferred _ => hardware.contents.tail
  | .removing dispatcher remaining
  | .popped dispatcher remaining _ _
  | .pushing dispatcher remaining _ _
  | .assigning dispatcher remaining _ _ =>
      turned dispatcher remaining hardware.inHand hardware.contents
  | _ => hardware.contents

/-- What holds between the steps of an operation. -/
def PhaseInvariant : Prop :=
  match hardware.phase with
  | .idle | .transfer => True
  | .transferring _ => hardware.m_HalQueue.slots ≠ []
  | .transferred _ => ∃ event,
      hardware.contents.head? = some event ∧
        event ∈ hardware.application.transferred
  | .removing dispatcher remaining =>
      dispatcher ∈ hardware.disposed ∧
        remaining ≤ hardware.m_HalQueue.slots.length
  | .popped dispatcher remaining testRec event =>
      dispatcher ∈ hardware.disposed ∧
        remaining ≤ hardware.m_HalQueue.slots.length ∧
        (event.m_context = dispatcher →
          (hardware.eventAt testRec).m_context = dispatcher) ∧
        (event.m_context ≠ dispatcher →
          hardware.eventAt testRec = event ∧
            hardware.m_HalQueue.m_full = false ∧
            testRec < hardware.m_HalQueue.m_size ∧
            testRec ∉ hardware.m_HalQueue.slots)
  | .pushing dispatcher remaining testRec event =>
      dispatcher ∈ hardware.disposed ∧
        remaining ≤ hardware.m_HalQueue.slots.length ∧
        event.m_context ≠ dispatcher ∧
        hardware.eventAt testRec = event ∧
        hardware.m_HalQueue.m_full = false ∧
        testRec < hardware.m_HalQueue.m_size ∧
        testRec ∉ hardware.m_HalQueue.slots
  | .assigning dispatcher remaining testRec newRec =>
      dispatcher ∈ hardware.disposed ∧
        remaining ≤ hardware.m_HalQueue.slots.length ∧
        (newRec = testRec ∨
          newRec ∈ hardware.m_HalQueue.slots ∧
            testRec < hardware.m_HalQueue.m_size ∧
            testRec ∉ hardware.m_HalQueue.slots)
  | .spawning interrupt =>
      hardware.application.m_applicationQueue.head? = some interrupt

/-- Events are numbered in order, every event is accounted for, and those that
were transferred are in front of the waiting ones. -/
structure EventInvariant : Prop where
  wellFormed : hardware.m_HalQueue.WellFormed
  numbered : ∀ (number : Nat) (event : SavedEvent),
    hardware.saved[number]? = some event → event.number = number
  known : ∀ event,
    event ∈ hardware.application.transferred ∨ event ∈ hardware.contents ∨
      event ∈ hardware.inHand → event ∈ hardware.saved
  ordered : (hardware.application.transferred ++ hardware.waiting).Pairwise
    fun left right => left.number < right.number
  kept : ∀ event ∈ hardware.saved,
    event ∈ hardware.application.transferred ∨ event ∈ hardware.contents ∨
      event ∈ hardware.inHand ∨ event ∈ hardware.displaced ∨
      event ∈ hardware.discarded ∨ event.m_context ∈ hardware.disposed
  phase : PhaseInvariant hardware
  application : ApplicationInvariant hardware.application
  notNull : hardware.usedNull = false

end Waiting

/-! ## An interrupt -/

section Save

variable {hardware : CLR_HW_Hardware}

/-- The event that an interrupt saves. -/
def CLR_HW_Hardware.newEvent (hardware : CLR_HW_Hardware) (context : Nat)
    (data1 data2 : UInt32) (time : Int64) : SavedEvent where
  number := hardware.saved.length
  m_time := time
  m_context := context
  m_data1 := data1
  m_data2 := data2

/-- The events that stay on the queue when an interrupt comes. -/
def CLR_HW_Hardware.staying (hardware : CLR_HW_Hardware) : List SavedEvent :=
  if hardware.m_HalQueue.m_full then hardware.contents.tail
  else hardware.contents

/-- An interrupt: the oldest event makes room if there is none, and the new one
is written behind the others. -/
structure Saves (hardware : CLR_HW_Hardware) (event : SavedEvent)
    (later : CLR_HW_Hardware) : Prop where
  wellFormed : later.m_HalQueue.WellFormed
  m_size : later.m_HalQueue.m_size = hardware.m_HalQueue.m_size
  slots : ∃ staying, (if hardware.m_HalQueue.m_full then
      hardware.m_HalQueue.slots.tail else hardware.m_HalQueue.slots) = staying ∧
    later.m_HalQueue.slots = staying ++ [hardware.m_HalQueue.m_writer] ∧
    hardware.m_HalQueue.m_writer ∉ staying
  eventAt : later.eventAt =
    Function.update hardware.eventAt hardware.m_HalQueue.m_writer event
  saved : later.saved = hardware.saved ++ [event]
  displaced : later.displaced = hardware.displaced ++
    if hardware.m_HalQueue.m_full then
      (hardware.m_HalQueue.slots.head?.map hardware.eventAt).toList
    else []
  application : later.application = hardware.application
  phase : later.phase = hardware.phase
  discarded : later.discarded = hardware.discarded
  disposed : later.disposed = hardware.disposed
  usedNull : later.usedNull = hardware.usedNull

theorem saveToHALQueue_saves
    (wellFormed : hardware.m_HalQueue.WellFormed)
    (context : Nat)
    (data1 data2 : UInt32)
    (time : Int64) :
    Saves hardware (hardware.newEvent context data1 data2 time)
      (hardware.SaveToHALQueue context data1 data2 time) := by
  have written : ∀ (rec : Nat) (event : SavedEvent),
      (fun place => (Function.update hardware.m_data rec
        { hardware.m_data rec with toSavedEvent := event } place).toSavedEvent) =
      Function.update hardware.eventAt rec event := by
    intro rec event
    funext place
    by_cases same : place = rec
    · subst place
      simp
    · simp [same, CLR_HW_Hardware.eventAt]
  cases isFull : hardware.m_HalQueue.m_full with
  | false =>
      obtain ⟨later, pushes, laterWellFormed, size, slots, isFree⟩ :=
        wellFormed.push isFull
      simp only [SaveToHALQueue, pushes]
      exact {
        wellFormed := laterWellFormed
        m_size := size
        slots := ⟨_, by simp [isFull], slots, isFree⟩
        eventAt := written _ _
        saved := rfl
        displaced := by simp [isFull]
        application := rfl
        phase := rfl
        discarded := rfl
        disposed := rfl
        usedNull := rfl }
  | true =>
      have nonempty : hardware.m_HalQueue.slots ≠ [] :=
        List.ne_nil_of_mem
          (wellFormed.mem_slots_of_full isFull wellFormed.reader_lt)
      obtain ⟨oldest, rest, slots⟩ := List.exists_cons_of_ne_nil nonempty
      obtain ⟨popped, pops, poppedWellFormed, poppedSize, poppedSlots,
        poppedFull, poppedWriter⟩ := wellFormed.pop slots
      obtain ⟨later, pushes, laterWellFormed, size, laterSlots, isFree⟩ :=
        poppedWellFormed.push poppedFull
      rw [poppedSlots, poppedWriter] at laterSlots
      rw [poppedSlots, poppedWriter] at isFree
      rw [poppedWriter] at pushes
      have first := Hal_Queue_UnknownSize.push_full isFull
      simp only [SaveToHALQueue, first, pops, pushes]
      exact {
        wellFormed := laterWellFormed
        m_size := size.trans poppedSize
        slots := ⟨rest, by simp [isFull, slots], laterSlots, isFree⟩
        eventAt := written _ _
        saved := rfl
        displaced := by
          simp [isFull, slots, CLR_HW_Hardware.eventAt]
        application := rfl
        phase := rfl
        discarded := rfl
        disposed := rfl
        usedNull := rfl }

/-- None of the events that remain to be turned around is put behind a new
one. -/
def TurnsInOrder (hardware : CLR_HW_Hardware) (dispatcher remaining : Nat)
    (event : SavedEvent) : Prop :=
  (hardware.staying ++ [event]).length ≤ remaining ∨
    ∀ other ∈ (hardware.staying ++ [event]).take remaining,
      other.m_context = dispatcher

/-- When an interrupt does no harm: it does not displace an event that was
copied and is still on the queue, it comes behind the events that are turned
around, and it does not write to a record that is still to be read. -/
def SaveUndisturbed (hardware : CLR_HW_Hardware) (event : SavedEvent) : Prop :=
  match hardware.phase with
  | .transferred _ => hardware.m_HalQueue.m_full = false
  | .removing dispatcher remaining =>
      TurnsInOrder hardware dispatcher remaining event
  | .popped dispatcher remaining testRec _ =>
      (hardware.eventAt testRec).m_context = dispatcher ∧
        (hardware.m_HalQueue.m_writer = testRec →
          event.m_context = dispatcher) ∧
        TurnsInOrder hardware dispatcher remaining event
  | .pushing _ _ _ _ => False
  | .assigning dispatcher remaining testRec newRec =>
      (newRec ≠ testRec → hardware.m_HalQueue.m_writer ≠ testRec) ∧
        TurnsInOrder hardware dispatcher remaining event
  | _ => True

variable {later : CLR_HW_Hardware} {event : SavedEvent}

theorem memory_of_phase
    (notAssigning : ∀ dispatcher remaining testRec newRec,
      hardware.phase ≠ .assigning dispatcher remaining testRec newRec) :
    hardware.memory = hardware.eventAt := by
  unfold CLR_HW_Hardware.memory
  split
  next isPhase => exact absurd isPhase (notAssigning _ _ _ _)
  next => rfl

theorem memory_assigning
    {dispatcher remaining testRec newRec : Nat}
    (isPhase : hardware.phase =
      .assigning dispatcher remaining testRec newRec) :
    hardware.memory = Function.update hardware.eventAt newRec
      (hardware.eventAt testRec) := by
  rw [CLR_HW_Hardware.memory, isPhase]

theorem Saves.memory
    (saves : Saves hardware event later)
    (invariant : EventInvariant hardware)
    (undisturbed : SaveUndisturbed hardware event) :
    later.memory =
      Function.update hardware.memory hardware.m_HalQueue.m_writer event := by
  have holds := invariant.phase
  rw [PhaseInvariant] at holds
  rw [SaveUndisturbed] at undisturbed
  cases isPhase : hardware.phase with
  | assigning dispatcher remaining testRec newRec =>
      have laterPhase := saves.phase.trans isPhase
      rw [memory_assigning isPhase, memory_assigning laterPhase, saves.eventAt]
      rw [isPhase] at holds undisturbed
      obtain ⟨apart, -⟩ := undisturbed
      obtain ⟨-, -, rfl | ⟨onQueue, isPlace, notOnQueue⟩⟩ := holds
      · rw [Function.update_eq_self, Function.update_eq_self]
      · have differs : newRec ≠ testRec := by
          rintro rfl
          exact notOnQueue onQueue
        have notFull : hardware.m_HalQueue.m_full = false := by
          rw [← Bool.not_eq_true]
          exact fun isFull => notOnQueue
            (invariant.wellFormed.mem_slots_of_full isFull isPlace)
        obtain ⟨staying, same, -, isFree⟩ := saves.slots
        rw [notFull] at same
        have elsewhere : hardware.m_HalQueue.m_writer ≠ newRec := by
          rintro rfl
          exact isFree (same ▸ onQueue)
        rw [Function.update_of_ne (apart differs).symm,
          Function.update_comm elsewhere.symm]
  | _ =>
      rw [memory_of_phase (by simp [saves.phase, isPhase]),
        memory_of_phase (by simp [isPhase]), saves.eventAt]

theorem staying_eq
    {staying : List Nat}
    (same : (if hardware.m_HalQueue.m_full then
      hardware.m_HalQueue.slots.tail else hardware.m_HalQueue.slots) =
        staying) :
    hardware.staying = staying.map hardware.memory := by
  rw [CLR_HW_Hardware.staying, ← same, contents]
  split
  · rw [List.map_tail]
  · rfl

theorem Saves.contents
    (saves : Saves hardware event later)
    (invariant : EventInvariant hardware)
    (undisturbed : SaveUndisturbed hardware event) :
    later.contents = hardware.staying ++ [event] := by
  obtain ⟨staying, same, slots, isFree⟩ := saves.slots
  rw [staying_eq same, CLR_HW_Hardware.contents, slots, List.map_append,
    saves.memory invariant undisturbed]
  congr 1
  · apply List.map_congr_left
    intro place member
    apply Function.update_of_ne
    rintro rfl
    exact isFree member
  · simp

theorem staying_sublist :
    hardware.staying.Sublist hardware.contents := by
  unfold CLR_HW_Hardware.staying
  split
  · exact List.tail_sublist _
  · exact List.Sublist.refl _

/-- An event that leaves the queue for an interrupt is recorded as
displaced. -/
theorem Saves.displaces
    (saves : Saves hardware event later)
    (invariant : EventInvariant hardware)
    {other : SavedEvent}
    (onQueue : other ∈ hardware.contents) :
    other ∈ hardware.staying ∨ other ∈ later.displaced := by
  unfold CLR_HW_Hardware.staying
  cases isFull : hardware.m_HalQueue.m_full with
  | false => exact .inl onQueue
  | true =>
      have inPlace : hardware.memory = hardware.eventAt := by
        have holds := invariant.phase
        rw [PhaseInvariant] at holds
        cases isPhase : hardware.phase with
        | assigning dispatcher remaining testRec newRec =>
            rw [isPhase] at holds
            obtain ⟨-, -, rfl | ⟨-, isPlace, notOnQueue⟩⟩ := holds
            · rw [memory_assigning isPhase, Function.update_eq_self]
            · exact absurd
                (invariant.wellFormed.mem_slots_of_full isFull isPlace)
                notOnQueue
        | _ => exact memory_of_phase (by simp [isPhase])
      rw [saves.displaced, isFull]
      rw [CLR_HW_Hardware.contents, inPlace] at onQueue ⊢
      cases slots : hardware.m_HalQueue.slots with
      | nil =>
          rw [slots] at onQueue
          cases onQueue
      | cons oldest rest =>
          rw [slots, List.map_cons, List.mem_cons] at onQueue
          rcases onQueue with rfl | onQueue
          · exact .inr (by simp)
          · exact .inl onQueue

@[simp] theorem turned_own
    {dispatcher remaining : Nat}
    {taken : SavedEvent}
    {contents : List SavedEvent}
    (ofDispatcher : taken.m_context = dispatcher) :
    turned dispatcher remaining [taken] contents =
      turned dispatcher remaining [] contents := by
  simp [turned, ofDispatcher]

theorem turned_save
    {dispatcher remaining : Nat}
    (inOrder : TurnsInOrder hardware dispatcher remaining event) :
    (turned dispatcher remaining [] (hardware.staying ++ [event])).Sublist
      (turned dispatcher remaining [] hardware.contents ++ [event]) := by
  simp only [turned, List.nil_append, List.append_assoc]
  have dropped : (hardware.staying.drop remaining).Sublist
      (hardware.contents.drop remaining) := by
    unfold CLR_HW_Hardware.staying
    split
    · rw [List.drop_tail]
      exact List.drop_sublist_drop_left _ (Nat.le_succ remaining)
    · exact List.Sublist.refl _
  rcases inOrder with short | own
  · have few : hardware.contents.length ≤ remaining := by
      rw [List.length_append, List.length_singleton] at short
      unfold CLR_HW_Hardware.staying at short
      split at short
      · rw [List.length_tail] at short
        omega
      · omega
    rw [List.drop_eq_nil_of_le short, List.take_of_length_le short,
      List.drop_eq_nil_of_le few, List.take_of_length_le few,
      List.nil_append, List.nil_append, List.filter_append]
    exact (staying_sublist.filter _).append List.filter_sublist
  · have none : ((hardware.staying ++ [event]).take remaining).filter
        (·.m_context ≠ dispatcher) = [] := by
      rw [List.filter_eq_nil_iff]
      intro other member
      simpa using own other member
    rw [none, List.append_nil, List.drop_append]
    refine dropped.append ?_
    exact (List.drop_sublist _ _).trans (List.sublist_append_right _ _)

theorem Saves.waiting
    (saves : Saves hardware event later)
    (invariant : EventInvariant hardware)
    (undisturbed : SaveUndisturbed hardware event) :
    later.waiting.Sublist (hardware.waiting ++ [event]) := by
  have contents := saves.contents invariant undisturbed
  have kept : later.contents.Sublist (hardware.contents ++ [event]) := by
    rw [contents]
    exact staying_sublist.append_right _
  have holds := invariant.phase
  rw [PhaseInvariant] at holds
  rw [SaveUndisturbed] at undisturbed
  unfold CLR_HW_Hardware.waiting CLR_HW_Hardware.inHand
  rw [saves.phase]
  cases isPhase : hardware.phase with
  | transferred rec =>
      rw [isPhase] at holds undisturbed
      obtain ⟨first, isFirst, -⟩ := holds
      obtain ⟨rest, onQueue⟩ := List.head?_eq_some_iff.mp isFirst
      dsimp only at undisturbed ⊢
      rw [contents, CLR_HW_Hardware.staying, undisturbed, onQueue]
      exact List.Sublist.refl _
  | removing dispatcher remaining =>
      rw [isPhase] at undisturbed
      dsimp only
      rw [contents]
      exact turned_save undisturbed
  | popped dispatcher remaining testRec taken =>
      rw [isPhase] at holds undisturbed
      obtain ⟨-, -, -, foreign⟩ := holds
      obtain ⟨own, -, inOrder⟩ := undisturbed
      have ofDispatcher : taken.m_context = dispatcher := by
        by_contra other
        exact other ((foreign other).1 ▸ own)
      dsimp only
      rw [contents, turned_own ofDispatcher, turned_own ofDispatcher]
      exact turned_save inOrder
  | pushing dispatcher remaining testRec taken =>
      rw [isPhase] at undisturbed
      exact undisturbed.elim
  | assigning dispatcher remaining testRec newRec =>
      rw [isPhase] at undisturbed
      dsimp only
      rw [contents]
      exact turned_save undisturbed.2
  | _ => exact kept

theorem mem_turned
    {dispatcher remaining : Nat}
    {inHand contents : List SavedEvent}
    {other : SavedEvent}
    (member : other ∈ turned dispatcher remaining inHand contents) :
    other ∈ contents ∨ other ∈ inHand := by
  rcases List.mem_append.mp member with dropped | filtered
  · exact .inl (List.mem_of_mem_drop dropped)
  · rcases List.mem_append.mp (List.mem_filter.mp filtered).1 with
      held | taken
    · exact .inr held
    · exact .inl (List.mem_of_mem_take taken)

theorem mem_waiting
    {other : SavedEvent}
    (member : other ∈ hardware.waiting) :
    other ∈ hardware.contents ∨ other ∈ hardware.inHand := by
  unfold CLR_HW_Hardware.waiting at member
  split at member
  · exact .inl (List.mem_of_mem_tail member)
  · exact mem_turned member
  · exact mem_turned member
  · exact mem_turned member
  · exact mem_turned member
  · exact .inl member

theorem Saves.phaseInvariant
    (saves : Saves hardware event later)
    (invariant : EventInvariant hardware)
    (undisturbed : SaveUndisturbed hardware event) :
    PhaseInvariant later := by
  have contents := saves.contents invariant undisturbed
  have holds := invariant.phase
  obtain ⟨staying, same, slots, isFree⟩ := saves.slots
  have length : hardware.m_HalQueue.slots.length ≤
      later.m_HalQueue.slots.length := by
    rw [slots, ← same, List.length_append, List.length_singleton]
    split
    · rw [List.length_tail]
      omega
    · omega
  have stays : hardware.m_HalQueue.m_full = false →
      ∀ place ∈ hardware.m_HalQueue.slots, place ∈ later.m_HalQueue.slots := by
    intro notFull place member
    rw [notFull] at same
    rw [slots, ← same]
    exact List.mem_append_left _ member
  rw [PhaseInvariant] at holds ⊢
  rw [SaveUndisturbed] at undisturbed
  rw [saves.phase, saves.disposed, saves.application, saves.m_size]
  cases isPhase : hardware.phase with
  | idle => trivial
  | transfer => trivial
  | transferring rec =>
      dsimp only
      rw [slots]
      exact List.append_ne_nil_of_right_ne_nil _ (List.cons_ne_nil _ _)
  | transferred rec =>
      rw [isPhase] at holds undisturbed
      obtain ⟨first, isFirst, isTransferred⟩ := holds
      refine ⟨first, ?_, isTransferred⟩
      dsimp only at undisturbed
      obtain ⟨rest, onQueue⟩ := List.head?_eq_some_iff.mp isFirst
      rw [contents, CLR_HW_Hardware.staying, undisturbed, onQueue]
      rfl
  | removing dispatcher remaining =>
      rw [isPhase] at holds
      exact ⟨holds.1, Nat.le_trans holds.2 length⟩
  | popped dispatcher remaining testRec taken =>
      rw [isPhase] at holds undisturbed
      obtain ⟨isDisposed, few, own, foreign⟩ := holds
      obtain ⟨isOwn, overwrites, -⟩ := undisturbed
      have ofDispatcher : taken.m_context = dispatcher := by
        by_contra other
        exact other ((foreign other).1 ▸ isOwn)
      refine ⟨isDisposed, Nat.le_trans few length, fun _ => ?_,
        fun other => absurd ofDispatcher other⟩
      rw [saves.eventAt]
      by_cases same : testRec = hardware.m_HalQueue.m_writer
      · rw [same, Function.update_self]
        exact overwrites same.symm
      · rw [Function.update_of_ne same]
        exact isOwn
  | pushing dispatcher remaining testRec taken =>
      rw [isPhase] at undisturbed
      exact undisturbed.elim
  | assigning dispatcher remaining testRec newRec =>
      rw [isPhase] at holds undisturbed
      obtain ⟨isDisposed, few, same' | ⟨onQueue, isPlace, notOnQueue⟩⟩ := holds
      · exact ⟨isDisposed, Nat.le_trans few length, .inl same'⟩
      · have differs : newRec ≠ testRec := by
          rintro rfl
          exact notOnQueue onQueue
        have notFull : hardware.m_HalQueue.m_full = false := by
          rw [← Bool.not_eq_true]
          exact fun isFull => notOnQueue
            (invariant.wellFormed.mem_slots_of_full isFull isPlace)
        refine ⟨isDisposed, Nat.le_trans few length,
          .inr ⟨stays notFull newRec onQueue, isPlace, ?_⟩⟩
        rw [notFull] at same
        rw [slots, ← same, List.mem_append, List.mem_singleton]
        rintro (isOld | isNew)
        · exact notOnQueue isOld
        · exact undisturbed.1 differs isNew.symm
  | spawning interrupt =>
      rw [isPhase] at holds
      exact holds

/-- An interrupt that does no harm keeps the invariant. -/
theorem EventInvariant.save
    (invariant : EventInvariant hardware)
    (isNew : event.number = hardware.saved.length)
    (saves : Saves hardware event later)
    (undisturbed : SaveUndisturbed hardware event) :
    EventInvariant later := by
  have contents := saves.contents invariant undisturbed
  have inHand : later.inHand = hardware.inHand := by
    rw [CLR_HW_Hardware.inHand, CLR_HW_Hardware.inHand, saves.phase]
  exact {
    wellFormed := saves.wellFormed
    numbered := fun number other isOther => by
      rw [saves.saved, List.getElem?_append] at isOther
      split at isOther
      · exact invariant.numbered number other isOther
      next isLast =>
        obtain ⟨isFirst, isEvent⟩ := List.getElem?_eq_some_iff.mp isOther
        rw [List.length_singleton] at isFirst
        rw [List.getElem_singleton] at isEvent
        rw [← isEvent, isNew]
        omega
    known := fun other isOther => by
      rw [saves.saved, List.mem_append, List.mem_singleton]
      rw [saves.application, contents, inHand, List.mem_append,
        List.mem_singleton] at isOther
      rcases isOther with before | (stays | isLast) | held
      · exact .inl (invariant.known other (.inl before))
      · exact .inl (invariant.known other
          (.inr (.inl (staying_sublist.subset stays))))
      · exact .inr isLast
      · exact .inl (invariant.known other (.inr (.inr held)))
    ordered := by
      rw [saves.application]
      refine List.Pairwise.sublist
        ((saves.waiting invariant undisturbed).append_left _) ?_
      rw [← List.append_assoc, List.pairwise_append]
      refine ⟨invariant.ordered, List.pairwise_singleton _ _, ?_⟩
      intro other isOther last isLast
      obtain rfl := List.mem_singleton.mp isLast
      have isSaved : other ∈ hardware.saved := by
        rcases List.mem_append.mp isOther with before | waits
        · exact invariant.known other (.inl before)
        · exact invariant.known other (.inr (mem_waiting waits))
      obtain ⟨number, fits, isSaved⟩ := List.getElem_of_mem isSaved
      have isNumber := invariant.numbered number other
        (List.getElem?_eq_some_iff.mpr ⟨fits, isSaved⟩)
      omega
    kept := fun other isOther => by
      rw [saves.saved, List.mem_append, List.mem_singleton] at isOther
      rw [saves.application, contents, inHand, saves.discarded, saves.disposed,
        List.mem_append, List.mem_singleton]
      rcases isOther with isOther | isLast
      · rcases invariant.kept other isOther with before | onQueue | elsewhere
        · exact .inl before
        · rcases saves.displaces invariant onQueue with stays | isDisplaced
          · exact .inr (.inl (.inl stays))
          · exact .inr (.inr (.inr (.inl isDisplaced)))
        · rw [saves.displaced, List.mem_append]
          tauto
      · exact .inr (.inl (.inr isLast))
    phase := saves.phaseInvariant invariant undisturbed
    application := saves.application ▸ invariant.application
    notNull := saves.usedNull.trans invariant.notNull }

end Save

end Interrupts

end NanoClr
