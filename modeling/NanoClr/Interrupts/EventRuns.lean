import NanoClr.Interrupts.EventInvariant

/-!
# Events that are kept

Runs in which no interrupt and no release comes at a bad moment transfer the
events in order and lose none without a reason.
-/

namespace NanoClr

namespace Interrupts

open CLR_HW_Hardware

/-! ## Steps of the runtime -/

section Steps

variable {hardware later : CLR_HW_Hardware}

/-- A step of the runtime that leaves the waiting events in their order. -/
theorem EventInvariant.step
    (invariant : EventInvariant hardware)
    (wellFormed : later.m_HalQueue.WellFormed)
    (saved : later.saved = hardware.saved)
    (displaced : later.displaced = hardware.displaced)
    (discarded : hardware.discarded ⊆ later.discarded)
    (disposed : hardware.disposed ⊆ later.disposed)
    (usedNull : later.usedNull = hardware.usedNull)
    (application : ApplicationInvariant later.application)
    (transferred :
      hardware.application.transferred ⊆ later.application.transferred)
    (known : ∀ event,
      event ∈ later.application.transferred ∨ event ∈ later.contents ∨
        event ∈ later.inHand →
      event ∈ hardware.application.transferred ∨ event ∈ hardware.contents ∨
        event ∈ hardware.inHand)
    (kept : ∀ event, event ∈ hardware.contents ∨ event ∈ hardware.inHand →
      event ∈ later.application.transferred ∨ event ∈ later.contents ∨
        event ∈ later.inHand ∨ event ∈ later.discarded ∨
        event.m_context ∈ later.disposed)
    (ordered : (later.application.transferred ++ later.waiting).Sublist
      (hardware.application.transferred ++ hardware.waiting))
    (phase : PhaseInvariant later) :
    EventInvariant later where
  wellFormed := wellFormed
  numbered := saved ▸ invariant.numbered
  known := fun event isOne => by
    rw [saved]
    exact invariant.known event (known event isOne)
  ordered := invariant.ordered.sublist ordered
  kept := fun event isSaved => by
    rw [saved] at isSaved
    rw [displaced]
    rcases invariant.kept event isSaved with
      isTransferred | onQueue | held | isDisplaced | isDiscarded | isDisposed
    · exact .inl (transferred isTransferred)
    · have := kept event (.inl onQueue)
      tauto
    · have := kept event (.inr held)
      tauto
    · exact .inr (.inr (.inr (.inl isDisplaced)))
    · exact .inr (.inr (.inr (.inr (.inl (discarded isDiscarded)))))
    · exact .inr (.inr (.inr (.inr (.inr (disposed isDisposed)))))
  phase := phase
  application := application
  notNull := usedNull.trans invariant.notNull

/-- A step that only goes on to another phase. -/
theorem EventInvariant.enter
    {phase : Phase}
    (invariant : EventInvariant hardware)
    (contents : { hardware with phase }.contents = hardware.contents)
    (inHand : { hardware with phase }.inHand = hardware.inHand)
    (waiting : { hardware with phase }.waiting.Sublist hardware.waiting)
    (holds : PhaseInvariant { hardware with phase }) :
    EventInvariant { hardware with phase } :=
  invariant.step invariant.wellFormed rfl rfl (List.Subset.refl _)
    (List.Subset.refl _) rfl invariant.application (List.Subset.refl _)
    (fun event => by rw [contents, inHand]; exact id)
    (fun event => by rw [contents, inHand]; tauto)
    (waiting.append_left _) holds

/-- A step of the application queue alone. -/
theorem EventInvariant.applicationStep
    {application : ApplicationQueue}
    (invariant : EventInvariant hardware)
    (kept : ApplicationInvariant application)
    (transferred :
      application.transferred = hardware.application.transferred)
    (holds : PhaseInvariant { hardware with application }) :
    EventInvariant { hardware with application } := by
  have same : { hardware with application }.waiting = hardware.waiting := rfl
  exact invariant.step invariant.wellFormed rfl rfl (List.Subset.refl _)
    (List.Subset.refl _) rfl kept (fun event member => transferred ▸ member)
    (fun event isOne => transferred ▸ isOne)
    (fun event isOne => by
      rcases isOne with onQueue | held
      · exact .inr (.inl onQueue)
      · exact .inr (.inr (.inl held)))
    (by rw [same, transferred])
    holds

/-- The events on the queue between two operations. -/
theorem contents_of_phase
    (hardware : CLR_HW_Hardware)
    (notAssigning : ∀ dispatcher remaining testRec newRec,
      hardware.phase ≠ .assigning dispatcher remaining testRec newRec) :
    hardware.contents = hardware.m_HalQueue.slots.map hardware.eventAt := by
  rw [CLR_HW_Hardware.contents, memory_of_phase notAssigning]

theorem EventInvariant.beginTransfer
    (invariant : EventInvariant hardware)
    (isPhase : hardware.phase = .idle) :
    EventInvariant { hardware with phase := .transfer } := by
  have contents := contents_of_phase hardware (by simp [isPhase])
  have inHand : hardware.inHand = [] := by
    rw [CLR_HW_Hardware.inHand, isPhase]
  have waiting : hardware.waiting = hardware.contents := by
    rw [CLR_HW_Hardware.waiting, isPhase]
  exact invariant.enter contents.symm inHand.symm
    (by rw [waiting, contents]; exact .refl _) trivial

theorem EventInvariant.peek
    (invariant : EventInvariant hardware)
    (isPhase : hardware.phase = .transfer) :
    EventInvariant hardware.peek := by
  have contents := contents_of_phase hardware (by simp [isPhase])
  have inHand : hardware.inHand = [] := by
    rw [CLR_HW_Hardware.inHand, isPhase]
  have waiting : hardware.waiting = hardware.contents := by
    rw [CLR_HW_Hardware.waiting, isPhase]
  unfold CLR_HW_Hardware.peek
  cases isOldest : hardware.m_HalQueue.Peek with
  | none =>
      exact invariant.enter contents.symm inHand.symm
        (by rw [waiting, contents]; exact .refl _) trivial
  | some rec =>
      refine invariant.enter contents.symm inHand.symm
        (by rw [waiting, contents]; exact .refl _) ?_
      show hardware.m_HalQueue.slots ≠ []
      rintro empty
      rw [invariant.wellFormed.peek, empty] at isOldest
      cases isOldest

theorem EventInvariant.copy
    {rec : Nat}
    (invariant : EventInvariant hardware)
    (isPhase : hardware.phase = .transferring rec)
    (isOldest : hardware.m_HalQueue.m_reader = rec) :
    EventInvariant (hardware.copy rec) := by
  have nonempty : hardware.m_HalQueue.slots ≠ [] := by
    have holds := invariant.phase
    rw [PhaseInvariant, isPhase] at holds
    exact holds
  have contents := contents_of_phase hardware (by simp [isPhase])
  have same : (hardware.copy rec).contents = hardware.contents :=
    contents.symm
  have inHand : hardware.inHand = [] := by
    rw [CLR_HW_Hardware.inHand, isPhase]
  have first := invariant.wellFormed.head_slots nonempty
  obtain ⟨rest, slots⟩ := List.head?_eq_some_iff.mp first
  rw [isOldest] at slots
  rw [slots, List.map_cons] at contents
  have transferred : (hardware.copy rec).application.transferred =
      hardware.application.transferred ++ [hardware.eventAt rec] := rfl
  refine invariant.step invariant.wellFormed rfl rfl (List.Subset.refl _)
    (List.Subset.refl _) rfl (invariant.application.link _) ?_ ?_ ?_ ?_ ?_
  · rw [transferred]
    exact List.subset_append_left _ _
  · intro event isOne
    rw [same, transferred, List.mem_append, List.mem_singleton] at isOne
    rcases isOne with (before | rfl) | onQueue | held
    · exact .inl before
    · exact .inr (.inl (contents ▸ List.mem_cons_self))
    · exact .inr (.inl onQueue)
    · cases held
  · intro event isOne
    rw [inHand] at isOne
    rcases isOne with onQueue | held
    · exact .inr (.inl (same ▸ onQueue))
    · cases held
  · have before : hardware.waiting = hardware.contents := by
      rw [CLR_HW_Hardware.waiting, isPhase]
    have behind : (hardware.copy rec).waiting = hardware.contents.tail := by
      rw [← same]
      rfl
    rw [transferred, before, behind, contents, List.tail_cons,
      List.append_assoc]
    exact List.Sublist.refl _
  · refine ⟨hardware.eventAt rec, ?_, ?_⟩
    · rw [same, contents]
      rfl
    · rw [transferred]
      exact List.mem_append_right _ List.mem_cons_self

theorem EventInvariant.popTransferred
    {rec : Nat}
    (invariant : EventInvariant hardware)
    (isPhase : hardware.phase = .transferred rec) :
    EventInvariant hardware.popTransferred := by
  have holds := invariant.phase
  rw [PhaseInvariant, isPhase] at holds
  obtain ⟨event, isFirst, isTransferred⟩ := holds
  obtain ⟨rest, onQueue⟩ := List.head?_eq_some_iff.mp isFirst
  have contents := contents_of_phase hardware (by simp [isPhase])
  rw [onQueue] at contents
  obtain ⟨slot, slots, isSlots, rfl, rfl⟩ :=
    List.map_eq_cons_iff.mp contents.symm
  obtain ⟨queue, pops, wellFormed, -, left, -⟩ :=
    invariant.wellFormed.pop isSlots
  have popped : hardware.popTransferred.m_HalQueue = queue := by
    rw [CLR_HW_Hardware.popTransferred, pops]
  have same : hardware.popTransferred.contents =
      slots.map hardware.eventAt := by
    rw [← left, ← popped]
    rfl
  have inHand : hardware.inHand = [] := by
    rw [CLR_HW_Hardware.inHand, isPhase]
  refine invariant.step (popped ▸ wellFormed) rfl rfl (List.Subset.refl _)
    (List.Subset.refl _) rfl invariant.application (List.Subset.refl _)
    ?_ ?_ ?_ trivial
  · intro event isOne
    rw [same] at isOne
    rw [onQueue]
    rcases isOne with before | behind | held
    · exact .inl before
    · exact .inr (.inl (List.mem_cons_of_mem _ behind))
    · cases held
  · intro event isOne
    rw [onQueue, inHand, List.mem_cons] at isOne
    rcases isOne with (rfl | behind) | held
    · exact .inl isTransferred
    · exact .inr (.inl (same ▸ behind))
    · cases held
  · have before : hardware.waiting = hardware.contents.tail := by
      rw [CLR_HW_Hardware.waiting, isPhase]
    have behind : hardware.popTransferred.waiting =
        hardware.popTransferred.contents := rfl
    rw [before, behind, same, onQueue]
    exact List.Sublist.refl _

theorem popAll_empty
    {queue : Hal_Queue_UnknownSize}
    {count : Nat}
    (wellFormed : queue.WellFormed)
    (enough : queue.slots.length ≤ count) :
    (popAll count queue).WellFormed ∧ (popAll count queue).slots = [] := by
  induction count generalizing queue with
  | zero =>
      exact ⟨wellFormed, List.length_eq_zero_iff.mp (Nat.le_zero.mp enough)⟩
  | succ count inductionHypothesis =>
      rw [popAll]
      split
      next isEmpty =>
        exact ⟨wellFormed, wellFormed.isEmpty_iff.mp isEmpty⟩
      next notEmpty =>
        rw [wellFormed.isEmpty_iff] at notEmpty
        obtain ⟨slot, rest, slots⟩ := List.exists_cons_of_ne_nil notEmpty
        obtain ⟨later, pops, laterWellFormed, -, left, -⟩ :=
          wellFormed.pop slots
        rw [pops]
        apply inductionHypothesis laterWellFormed
        rw [slots, List.length_cons] at enough
        rw [left]
        omega

theorem EventInvariant.outOfMemory
    {rec : Nat}
    (invariant : EventInvariant hardware)
    (isPhase : hardware.phase = .transferring rec) :
    EventInvariant hardware.outOfMemory := by
  have enough : hardware.m_HalQueue.slots.length ≤
      hardware.m_HalQueue.m_size := by
    rw [Hal_Queue_UnknownSize.length_slots]
    exact invariant.wellFormed.numberOfElements_le
  obtain ⟨wellFormed, empty⟩ := popAll_empty invariant.wellFormed enough
  have contents := contents_of_phase hardware (by simp [isPhase])
  have nothing : hardware.outOfMemory.contents = [] := by
    have same : hardware.outOfMemory.contents =
        hardware.outOfMemory.m_HalQueue.slots.map hardware.eventAt := rfl
    rw [same, CLR_HW_Hardware.outOfMemory, empty]
    rfl
  have inHand : hardware.inHand = [] := by
    rw [CLR_HW_Hardware.inHand, isPhase]
  refine invariant.step wellFormed rfl rfl (List.subset_append_left _ _)
    (List.Subset.refl _) rfl invariant.application (List.Subset.refl _)
    ?_ ?_ ?_ trivial
  · intro event isOne
    rw [nothing] at isOne
    rcases isOne with before | onQueue | held
    · exact .inl before
    · cases onQueue
    · cases held
  · intro event isOne
    rw [inHand, contents] at isOne
    rcases isOne with onQueue | held
    · exact .inr (.inr (.inr (.inl (List.mem_append_right _ onQueue))))
    · cases held
  · have behind : hardware.outOfMemory.waiting = [] := nothing
    rw [behind]
    exact (List.nil_sublist _).append_left _

/-! ## Removing the records of a dispatcher -/

theorem EventInvariant.countElements
    (invariant : EventInvariant hardware)
    (isPhase : hardware.phase = .idle)
    (dispatcher : Nat) :
    EventInvariant (hardware.countElements dispatcher) := by
  have contents := contents_of_phase hardware (by simp [isPhase])
  have same : (hardware.countElements dispatcher).contents =
      hardware.contents := contents.symm
  have inHand : hardware.inHand = [] := by
    rw [CLR_HW_Hardware.inHand, isPhase]
  refine invariant.step invariant.wellFormed rfl rfl (List.Subset.refl _)
    (List.subset_append_left _ _) rfl invariant.application
    (List.Subset.refl _) ?_ ?_ ?_ ?_
  · intro event isOne
    rwa [same, show (hardware.countElements dispatcher).inHand = [] from rfl,
      ← inHand] at isOne
  · intro event isOne
    rw [inHand] at isOne
    rcases isOne with onQueue | held
    · exact .inr (.inl (same ▸ onQueue))
    · cases held
  · have before : hardware.waiting = hardware.contents := by
      rw [CLR_HW_Hardware.waiting, isPhase]
    have behind : (hardware.countElements dispatcher).waiting =
        turned dispatcher hardware.m_HalQueue.NumberOfElements []
          (hardware.countElements dispatcher).contents := rfl
    have all : hardware.contents.length =
        hardware.m_HalQueue.NumberOfElements := by
      rw [CLR_HW_Hardware.contents, List.length_map,
        Hal_Queue_UnknownSize.length_slots]
    rw [before, behind, same, turned, ← all, List.drop_length,
      List.take_length, List.nil_append, List.nil_append]
    exact List.filter_sublist.append_left _
  · refine ⟨List.mem_append_right _ List.mem_cons_self, ?_⟩
    rw [Hal_Queue_UnknownSize.length_slots]
    exact Nat.le_refl _

theorem EventInvariant.popRecord
    {dispatcher remaining : Nat}
    (invariant : EventInvariant hardware)
    (isPhase : hardware.phase = .removing dispatcher (remaining + 1)) :
    EventInvariant (hardware.popRecord dispatcher remaining) := by
  have holds := invariant.phase
  rw [PhaseInvariant, isPhase] at holds
  obtain ⟨isDisposed, few⟩ := holds
  have nonempty : hardware.m_HalQueue.slots ≠ [] := by
    rintro empty
    rw [empty] at few
    exact absurd few (Nat.not_succ_le_zero _)
  obtain ⟨testRec, rest, slots⟩ := List.exists_cons_of_ne_nil nonempty
  have distinct := invariant.wellFormed.slots_nodup
  have isPlace := invariant.wellFormed.slots_lt
    (slots ▸ List.mem_cons_self : testRec ∈ hardware.m_HalQueue.slots)
  rw [slots, List.nodup_cons] at distinct
  obtain ⟨queue, pops, wellFormed, size, left, notFull, -⟩ :=
    invariant.wellFormed.pop slots
  have popped : hardware.popRecord dispatcher remaining = { hardware with
      m_HalQueue := queue
      phase := .popped dispatcher remaining testRec
        (hardware.eventAt testRec) } := by
    rw [CLR_HW_Hardware.popRecord, pops]
  have contents := contents_of_phase hardware (by simp [isPhase])
  rw [slots, List.map_cons, ← left] at contents
  have inHand : hardware.inHand = [] := by
    rw [CLR_HW_Hardware.inHand, isPhase]
  rw [popped]
  refine invariant.step wellFormed rfl rfl (List.Subset.refl _)
    (List.Subset.refl _) rfl invariant.application (List.Subset.refl _)
    ?_ ?_ ?_ ?_
  · intro event isOne
    rw [contents]
    rcases isOne with before | onQueue | held
    · exact .inl before
    · exact .inr (.inl (List.mem_cons_of_mem _ onQueue))
    · obtain rfl := List.mem_singleton.mp held
      exact .inr (.inl List.mem_cons_self)
  · intro event isOne
    rw [inHand, contents, List.mem_cons] at isOne
    rcases isOne with (rfl | onQueue) | held
    · exact .inr (.inr (.inl List.mem_cons_self))
    · exact .inr (.inl onQueue)
    · cases held
  · have before : hardware.waiting =
        turned dispatcher (remaining + 1) [] hardware.contents := by
      rw [CLR_HW_Hardware.waiting, isPhase, inHand]
    rw [before, contents, turned, List.drop_succ_cons, List.take_succ_cons]
    exact List.Sublist.refl _
  · rw [slots, List.length_cons] at few
    refine ⟨isDisposed, ?_, fun own => own, fun _ => ⟨rfl, notFull, ?_, ?_⟩⟩
    · rw [left]
      exact Nat.le_of_succ_le_succ few
    · rw [size]
      exact isPlace
    · rw [left]
      exact distinct.1

theorem EventInvariant.testRecord
    {dispatcher remaining testRec : Nat}
    {event : SavedEvent}
    (invariant : EventInvariant hardware)
    (isPhase : hardware.phase = .popped dispatcher remaining testRec event) :
    EventInvariant (hardware.testRecord dispatcher remaining testRec event) := by
  have holds := invariant.phase
  rw [PhaseInvariant, isPhase] at holds
  obtain ⟨isDisposed, few, own, foreign⟩ := holds
  have contents := contents_of_phase hardware (by simp [isPhase])
  have inHand : hardware.inHand = [event] := by
    rw [CLR_HW_Hardware.inHand, isPhase]
  have before : hardware.waiting =
      turned dispatcher remaining [event] hardware.contents := by
    rw [CLR_HW_Hardware.waiting, isPhase, inHand]
  unfold CLR_HW_Hardware.testRecord
  split
  next other =>
    have otherEvent : event.m_context ≠ dispatcher :=
      fun ofDispatcher => other (own ofDispatcher)
    refine invariant.enter contents.symm inHand.symm ?_
      ⟨isDisposed, few, otherEvent, foreign otherEvent⟩
    rw [before, contents]
    exact List.Sublist.refl _
  next same =>
    have ofDispatcher : event.m_context = dispatcher := by
      by_contra other
      exact same ((foreign other).1 ▸ other)
    refine invariant.step invariant.wellFormed rfl rfl (List.Subset.refl _)
      (List.Subset.refl _) rfl invariant.application (List.Subset.refl _)
      ?_ ?_ ?_ ⟨isDisposed, few⟩
    · intro other isOne
      rw [contents]
      rcases isOne with before | onQueue | held
      · exact .inl before
      · exact .inr (.inl onQueue)
      · cases held
    · intro other isOne
      rw [inHand, List.mem_singleton, contents] at isOne
      rcases isOne with onQueue | rfl
      · exact .inr (.inl onQueue)
      · exact .inr (.inr (.inr (.inr (ofDispatcher ▸ isDisposed))))
    · rw [before, turned_own ofDispatcher, contents]
      exact List.Sublist.refl _

theorem EventInvariant.pushRecord
    {dispatcher remaining testRec : Nat}
    {event : SavedEvent}
    (invariant : EventInvariant hardware)
    (isPhase : hardware.phase = .pushing dispatcher remaining testRec event) :
    EventInvariant (hardware.pushRecord dispatcher remaining testRec) := by
  have holds := invariant.phase
  rw [PhaseInvariant, isPhase] at holds
  obtain ⟨isDisposed, few, other, inPlace, notFull, isPlace, notOnQueue⟩ :=
    holds
  obtain ⟨queue, pushes, wellFormed, size, slots, isFree⟩ :=
    invariant.wellFormed.push notFull
  have pushed : hardware.pushRecord dispatcher remaining testRec = {
      hardware with
      m_HalQueue := queue
      phase := .assigning dispatcher remaining testRec
        hardware.m_HalQueue.m_writer } := by
    rw [CLR_HW_Hardware.pushRecord, pushes]
  have contents := contents_of_phase hardware (by simp [isPhase])
  have inHand : hardware.inHand = [event] := by
    rw [CLR_HW_Hardware.inHand, isPhase]
  have after : (hardware.pushRecord dispatcher remaining testRec).contents =
      hardware.contents ++ [event] := by
    have moved : (hardware.pushRecord dispatcher remaining testRec).contents =
        queue.slots.map (Function.update hardware.eventAt
          hardware.m_HalQueue.m_writer (hardware.eventAt testRec)) := by
      rw [pushed]
      rfl
    rw [moved, slots, List.map_append, contents]
    congr 1
    · apply List.map_congr_left
      intro place member
      apply Function.update_of_ne
      rintro rfl
      exact isFree member
    · simp [inPlace]
  have before : hardware.waiting =
      turned dispatcher remaining [event] hardware.contents := by
    rw [CLR_HW_Hardware.waiting, isPhase, inHand]
  have behind : (hardware.pushRecord dispatcher remaining testRec).waiting =
      turned dispatcher remaining [] (hardware.contents ++ [event]) := by
    rw [← after, pushed]
    rfl
  have noneHeld : (hardware.pushRecord dispatcher remaining testRec).inHand =
      [] := by
    rw [pushed]
    rfl
  have length : remaining ≤ hardware.contents.length := by
    rw [CLR_HW_Hardware.contents, List.length_map]
    exact few
  rw [pushed] at after behind noneHeld ⊢
  refine invariant.step wellFormed rfl rfl (List.Subset.refl _)
    (List.Subset.refl _) rfl invariant.application (List.Subset.refl _)
    ?_ ?_ ?_ ?_
  · intro saved isOne
    rw [inHand]
    rw [after, noneHeld, List.mem_append] at isOne
    rcases isOne with transferred | (onQueue | held) | none
    · exact .inl transferred
    · exact .inr (.inl onQueue)
    · exact .inr (.inr held)
    · cases none
  · intro saved isOne
    rw [inHand] at isOne
    rw [after, List.mem_append]
    rcases isOne with onQueue | held
    · exact .inr (.inl (.inl onQueue))
    · exact .inr (.inl (.inr held))
  · rw [before, behind, turned, turned, List.drop_append_of_le_length length,
      List.take_append_of_le_length length, List.nil_append,
      List.filter_append]
    simp [other]
  · refine ⟨isDisposed, ?_, ?_⟩
    · show remaining ≤ queue.slots.length
      rw [slots, List.length_append]
      exact Nat.le_trans few (Nat.le_add_right _ _)
    · by_cases same : hardware.m_HalQueue.m_writer = testRec
      · exact .inl same
      · refine .inr ⟨?_, ?_, ?_⟩
        · rw [slots]
          exact List.mem_append_right _ List.mem_cons_self
        · rw [size]
          exact isPlace
        · rw [slots, List.mem_append, List.mem_singleton]
          rintro (isOld | isNew)
          · exact notOnQueue isOld
          · exact same isNew.symm

theorem EventInvariant.assignRecord
    {dispatcher remaining testRec newRec : Nat}
    (invariant : EventInvariant hardware)
    (isPhase : hardware.phase =
      .assigning dispatcher remaining testRec newRec) :
    EventInvariant
      (hardware.assignRecord dispatcher remaining testRec newRec) := by
  have holds := invariant.phase
  rw [PhaseInvariant, isPhase] at holds
  have inPlace : (hardware.assignRecord dispatcher remaining testRec newRec
      ).eventAt = hardware.memory := by
    rw [memory_assigning isPhase]
    funext place
    by_cases same : place = newRec
    · subst place
      simp [CLR_HW_Hardware.assignRecord, CLR_HW_Hardware.eventAt,
        HalInterruptRecord.AssignFrom]
    · simp [CLR_HW_Hardware.assignRecord, CLR_HW_Hardware.eventAt, same]
  have contents : (hardware.assignRecord dispatcher remaining testRec newRec
      ).contents = hardware.contents := by
    rw [CLR_HW_Hardware.contents, CLR_HW_Hardware.contents, ← inPlace]
    rfl
  have inHand : hardware.inHand = [] := by
    rw [CLR_HW_Hardware.inHand, isPhase]
  refine invariant.step invariant.wellFormed rfl rfl (List.Subset.refl _)
    (List.Subset.refl _) rfl invariant.application (List.Subset.refl _)
    ?_ ?_ ?_ ⟨holds.1, holds.2.1⟩
  · intro event isOne
    rw [contents] at isOne
    rcases isOne with before | onQueue | held
    · exact .inl before
    · exact .inr (.inl onQueue)
    · cases held
  · intro event isOne
    rw [inHand] at isOne
    rcases isOne with onQueue | held
    · exact .inr (.inl (contents ▸ onQueue))
    · cases held
  · have before : hardware.waiting =
        turned dispatcher remaining [] hardware.contents := by
      rw [CLR_HW_Hardware.waiting, isPhase, inHand]
    rw [before, ← contents]
    exact List.Sublist.refl _

theorem EventInvariant.endRemoval
    {dispatcher : Nat}
    (invariant : EventInvariant hardware)
    (isPhase : hardware.phase = .removing dispatcher 0) :
    EventInvariant { hardware with phase := .idle } := by
  have contents := contents_of_phase hardware (by simp [isPhase])
  have inHand : hardware.inHand = [] := by
    rw [CLR_HW_Hardware.inHand, isPhase]
  refine invariant.enter contents.symm inHand.symm ?_ trivial
  have before : hardware.waiting =
      turned dispatcher 0 [] hardware.contents := by
    rw [CLR_HW_Hardware.waiting, isPhase, inHand]
  rw [before, contents, turned, List.drop_zero, List.take_zero]
  exact List.sublist_append_left _ _

/-! ## Dispatching -/

theorem EventInvariant.beginSpawn
    (invariant : EventInvariant hardware)
    (isPhase : hardware.phase = .idle)
    (rebootPending : Bool) :
    EventInvariant (hardware.beginSpawn rebootPending) := by
  have contents := contents_of_phase hardware (by simp [isPhase])
  have inHand : hardware.inHand = [] := by
    rw [CLR_HW_Hardware.inHand, isPhase]
  have waiting : hardware.waiting = hardware.contents := by
    rw [CLR_HW_Hardware.waiting, isPhase]
  unfold CLR_HW_Hardware.beginSpawn
  split
  next => exact invariant
  next interrupt rest nodes =>
    split
    next => exact invariant
    next =>
      refine invariant.enter contents.symm inHand.symm
        (by rw [waiting, contents]; exact .refl _) ?_
      show hardware.application.m_applicationQueue.head? = some interrupt
      rw [nodes]
      rfl

theorem EventInvariant.endSpawn
    {interrupt : CLR_RT_ApplicationInterrupt}
    (invariant : EventInvariant hardware)
    (isPhase : hardware.phase = .spawning interrupt)
    (ensured : Bool)
    (outcomes : List DispatchOutcome) :
    EventInvariant (hardware.endSpawn interrupt ensured outcomes) := by
  have holds := invariant.phase
  rw [PhaseInvariant, isPhase] at holds
  have contents := contents_of_phase hardware (by simp [isPhase])
  have inHand : hardware.inHand = [] := by
    rw [CLR_HW_Hardware.inHand, isPhase]
  have waiting : hardware.waiting = hardware.contents := by
    rw [CLR_HW_Hardware.waiting, isPhase]
  have entered : EventInvariant { hardware with phase := .idle } :=
    invariant.enter contents.symm inHand.symm
      (by rw [waiting, contents]; exact .refl _) trivial
  unfold CLR_HW_Hardware.endSpawn
  split
  next =>
    obtain ⟨kept, transferred⟩ :=
      invariant.application.dispatchNode holds outcomes
    exact entered.applicationStep kept transferred trivial
  next => exact entered

theorem EventInvariant.threadTerminates
    (invariant : EventInvariant hardware)
    (isPhase : hardware.phase = .idle)
    (outcomes : List DispatchOutcome) :
    EventInvariant { hardware with
      application := hardware.application.threadTerminates outcomes } := by
  refine invariant.applicationStep
    (invariant.application.threadTerminates outcomes)
    (spawnDispatcher_spec outcomes _).1.transferred ?_
  simp only [PhaseInvariant, isPhase]

end Steps

end Interrupts

end NanoClr
