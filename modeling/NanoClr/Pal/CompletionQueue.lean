import Mathlib.Data.List.Basic
import NanoClr.Library.TransitionSystem
import NanoClr.Pal.AsyncCompletions

/-!
# The queue of completions

The completion list holds what was enqueued and neither executed nor aborted,
in the order of the times, and the compare value is the first of them.  The
code keeps this only where an insertion does not depend on what lies behind the
list, and where the completion that is executed last leaves the compare value
right.
-/

namespace NanoClr

namespace Pal

/-! ## What the queue is for -/

/-- The newest mark of a completion. -/
def lastMark (trace : List Mark) (completion : Nat) : Option Mark :=
  trace.find? fun mark => mark.completion = completion

/-- How many marks there are since a completion was enqueued. -/
def sinceEnqueued (trace : List Mark) (completion : Nat) : Nat :=
  trace.idxOf (.enqueued completion)

/-- A completion is executed when it was enqueued last, and its callback is
called when it was executed last. -/
inductive History : List Mark → Prop
  | start : History []
  | enqueued {older : List Mark} (history : History older) (completion : Nat) :
      History (.enqueued completion :: older)
  | aborted {older : List Mark} (history : History older) (completion : Nat) :
      History (.aborted completion :: older)
  | executed {older : List Mark} (history : History older) {completion : Nat}
      (pending : lastMark older completion = some (.enqueued completion)) :
      History (.executed completion :: older)
  | called {older : List Mark} (history : History older) {completion : Nat}
      (waiting : lastMark older completion = some (.executed completion)) :
      History (.called completion :: older)

/-- One completion comes before another: it is due earlier, or at the same time
and was enqueued earlier. -/
def DueBefore (timers : Timers) (left right : Nat) : Prop :=
  timers.eventTimeTicks left < timers.eventTimeTicks right ∨
    timers.eventTimeTicks left = timers.eventTimeTicks right ∧
      sinceEnqueued timers.trace right < sinceEnqueued timers.trace left

/-- The time of the first pending completion. -/
def firstTicks (timers : Timers) : Nat :=
  match timers.completionList with
  | [] => HAL_COMPLETION_IDLE_VALUE
  | first :: _ => timers.eventTimeTicks first

/-- The lists hold what the marks say. -/
structure QueueWellFormed (attributes : Nat → Completion) (timers : Timers) :
    Prop where
  history : History timers.trace
  pending : ∀ completion, completion ∈ timers.completionList ↔
    lastMark timers.trace completion = some (.enqueued completion)
  continued : ∀ completion, completion ∈ timers.continuationList ↔
    lastMark timers.trace completion = some (.executed completion) ∧
      (attributes completion).executeInISR = false ∧
      (attributes completion).hasEntryPoint = true
  sorted : timers.completionList.Pairwise (DueBefore timers)
  continuations : timers.continuationList.Nodup
  notIdle : ∀ completion ∈ timers.completionList,
    timers.eventTimeTicks completion ≠ HAL_COMPLETION_IDLE_VALUE

/-- The compare value is the time of the first pending completion, and the idle
value exactly when none is pending. -/
def CompareRight (timers : Timers) : Prop :=
  timers.compare = firstTicks timers ∧
    (timers.compare = HAL_COMPLETION_IDLE_VALUE ↔ timers.completionList = [])

/-! ## Marks -/

section Marks

variable {trace : List Mark} {mark : Mark} {completion : Nat}

theorem lastMark_cons_same (about : mark.completion = completion) :
    lastMark (mark :: trace) completion = some mark := by
  simp [lastMark, about]

theorem lastMark_cons_other (about : mark.completion ≠ completion) :
    lastMark (mark :: trace) completion = lastMark trace completion := by
  simp [lastMark, about]

theorem sinceEnqueued_same :
    sinceEnqueued (.enqueued completion :: trace) completion = 0 := by
  simp [sinceEnqueued]

theorem sinceEnqueued_other (different : mark ≠ .enqueued completion) :
    sinceEnqueued (mark :: trace) completion =
      sinceEnqueued trace completion + 1 :=
  List.idxOf_cons_ne trace different

end Marks

section Order

variable {timers timers' : Timers}

theorem DueBefore.irrefl
    (completion : Nat)
    (before : DueBefore timers completion completion) :
    False := by
  rcases before with earlier | ⟨_, earlier⟩
  · exact Nat.lt_irrefl _ earlier
  · exact Nat.lt_irrefl _ earlier

/-- A mark that enqueues neither of two completions leaves their order. -/
theorem DueBefore.mark
    {mark : Mark}
    {left right : Nat}
    (before : DueBefore timers left right)
    (times : timers'.eventTimeTicks left = timers.eventTimeTicks left ∧
      timers'.eventTimeTicks right = timers.eventTimeTicks right)
    (trace : timers'.trace = mark :: timers.trace)
    (notLeft : mark ≠ .enqueued left)
    (notRight : mark ≠ .enqueued right) :
    DueBefore timers' left right := by
  rw [DueBefore, times.1, times.2, trace, sinceEnqueued_other notLeft,
    sinceEnqueued_other notRight]
  rcases before with earlier | ⟨same, earlier⟩
  · exact .inl earlier
  · exact .inr ⟨same, Nat.succ_lt_succ earlier⟩

theorem QueueWellFormed.nodup
    {attributes : Nat → Completion}
    (wellFormed : QueueWellFormed attributes timers) :
    timers.completionList.Nodup := by
  refine wellFormed.sorted.imp ?_
  rintro left _ before rfl
  exact before.irrefl left

end Order

/-! ## The search for a position -/

section Search

variable {times : Nat → Nat} {tailTicks ticks : Nat} {list : List Nat}

/-- A node with the time that is searched for is passed. -/
theorem findPosition_erase
    {completion : Nat}
    (same : times completion = ticks) :
    Timers.findPosition times tailTicks ticks (list.erase completion) =
      Timers.findPosition times tailTicks ticks list := by
  induction list with
  | nil => rfl
  | cons first rest inductionHypothesis =>
      by_cases isFirst : first = completion
      · subst isFirst
        rw [List.erase_cons_head, Timers.findPosition, same,
          if_neg (Nat.lt_irrefl ticks)]
      · rw [List.erase_cons_tail (by simpa using isFirst),
          Timers.findPosition, Timers.findPosition, inductionHypothesis]

/-- The search stops before the first node that is due later. -/
theorem findPosition_spec
    (times : Nat → Nat)
    (tailTicks ticks : Nat)
    (list : List Nat) :
    (∃ before other after, list = before ++ other :: after ∧
      (∀ node ∈ before, times node ≤ ticks) ∧ ticks < times other ∧
      Timers.findPosition times tailTicks ticks list = .node other) ∨
    (∀ node ∈ list, times node ≤ ticks) ∧
      Timers.findPosition times tailTicks ticks list =
        if ticks < tailTicks then .tail else .null := by
  induction list with
  | nil => exact .inr ⟨nofun, rfl⟩
  | cons first rest inductionHypothesis =>
      by_cases later : ticks < times first
      · exact .inl ⟨[], first, rest, rfl, nofun, later, if_pos later⟩
      · have passes : Timers.findPosition times tailTicks ticks
            (first :: rest) =
              Timers.findPosition times tailTicks ticks rest :=
          if_neg later
        have notLater : times first ≤ ticks := Nat.le_of_not_lt later
        rw [passes]
        rcases inductionHypothesis with
          ⟨before, other, after, isRest, early, late, found⟩ | ⟨early, found⟩
        · refine .inl ⟨first :: before, other, after, ?_, ?_, late, found⟩
          · rw [isRest, List.cons_append]
          · exact List.forall_mem_cons.mpr ⟨notLater, early⟩
        · exact .inr ⟨List.forall_mem_cons.mpr ⟨notLater, early⟩, found⟩

theorem insertBefore_append
    {before after : List Nat}
    {other completion : Nat}
    (notBefore : other ∉ before) :
    Timers.insertBefore other completion (before ++ other :: after) =
      before ++ completion :: other :: after := by
  induction before with
  | nil => simp [Timers.insertBefore]
  | cons first rest inductionHypothesis =>
      rw [List.mem_cons, not_or] at notBefore
      rw [List.cons_append, Timers.insertBefore,
        if_neg (Ne.symm notBefore.1), inductionHypothesis notBefore.2]
      rfl

end Search

/-! ## Single operations -/

/-- The time of an insertion is not the idle value, and its position does not
depend on what lies behind the list, or the time read there is late enough. -/
def FindsPlace (timers : Timers) (completion ticks tailTicks : Nat) : Prop :=
  ticks ≠ HAL_COMPLETION_IDLE_VALUE ∧
    (timers.completionList = [] ∨ ticks < tailTicks ∨
      ∃ other ∈ timers.completionList, other ≠ completion ∧
        ticks < timers.eventTimeTicks other)

section Operations

variable
  {attributes : Nat → Completion}
  {timers : Timers}
  {completion : Nat}

/-- A list with a node in it starts with the node or not. -/
theorem firstNode_eq_iff
    (timers : Timers)
    {before after : List Nat}
    (isList : timers.completionList = before ++ completion :: after)
    (notBefore : completion ∉ before) :
    timers.firstNode = .node completion ↔ before = [] := by
  rw [Timers.firstNode, isList]
  cases before with
  | nil => simp
  | cons first rest =>
      rw [List.mem_cons, not_or] at notBefore
      simpa using Ne.symm notBefore.1

/-- An insertion that finds its place puts the completion behind all that are
due at its time or earlier. -/
theorem enqueueTicks_spec
    (nodup : timers.completionList.Nodup)
    {ticks tailTicks : Nat}
    (finds : FindsPlace timers completion ticks tailTicks) :
    ∃ before after,
      timers.completionList.erase completion = before ++ after ∧
      (∀ node ∈ before, timers.eventTimeTicks node ≤ ticks) ∧
      (∀ node, after.head? = some node →
        ticks < timers.eventTimeTicks node) ∧
      timers.enqueueTicks completion ticks tailTicks =
        { completionList := before ++ completion :: after
          continuationList := timers.continuationList.erase completion
          eventTimeTicks :=
            Function.update timers.eventTimeTicks completion ticks
          compare := if before = [] then ticks else timers.compare
          trace := .enqueued completion :: timers.trace } := by
  have notErased : completion ∉ timers.completionList.erase completion :=
    nodup.not_mem_erase
  have timeOf {node : Nat}
      (isErased : node ∈ timers.completionList.erase completion) :
      Function.update timers.eventTimeTicks completion ticks node =
        timers.eventTimeTicks node := by
    apply Function.update_of_ne
    rintro rfl
    exact notErased isErased
  let marked : Timers :=
    { timers.mark (.enqueued completion) with
      eventTimeTicks :=
        Function.update timers.eventTimeTicks completion ticks }
  -- What is left after the search is to link the node and to compare.
  have finish (before after : List Nat) (position : NodePointer)
      (isErased : timers.completionList.erase completion = before ++ after)
      (isPosition :
        (if marked.completionList = [] then marked.firstNode
          else Timers.findPosition marked.eventTimeTicks tailTicks ticks
            marked.completionList) = position)
      (inserts : marked.insertBeforeNode position completion =
        { marked.unlink completion with
          completionList := before ++ completion :: after }) :
      timers.enqueueTicks completion ticks tailTicks =
        { completionList := before ++ completion :: after
          continuationList := timers.continuationList.erase completion
          eventTimeTicks :=
            Function.update timers.eventTimeTicks completion ticks
          compare := if before = [] then ticks else timers.compare
          trace := .enqueued completion :: timers.trace } := by
    have notBefore : completion ∉ before := fun member =>
      notErased (isErased ▸ List.mem_append_left after member)
    have isFirst := firstNode_eq_iff
      { marked.unlink completion with
        completionList := before ++ completion :: after } rfl notBefore
    have steps : timers.enqueueTicks completion ticks tailTicks =
        if (marked.insertBeforeNode position completion).firstNode =
            .node completion then
          (marked.insertBeforeNode position completion).setCompare ticks
        else marked.insertBeforeNode position completion := by
      rw [← isPosition]
      rfl
    rw [steps, inserts]
    simp only [isFirst]
    split <;> rfl
  by_cases isEmpty : timers.completionList = []
  · refine ⟨[], [], by rw [isEmpty]; rfl, nofun, nofun, ?_⟩
    refine finish [] [] .tail (by rw [isEmpty]; rfl) ?_ ?_
    · have markedEmpty : marked.completionList = [] := isEmpty
      rw [if_pos markedEmpty, Timers.firstNode, markedEmpty]
    · have unlinkedEmpty : (marked.unlink completion).completionList = [] := by
        rw [Timers.unlink]
        exact congrArg (List.erase · completion) isEmpty
      rw [Timers.insertBeforeNode]
      simp only [unlinkedEmpty]
  · have markedNonempty : ¬ marked.completionList = [] := isEmpty
    have search : Timers.findPosition marked.eventTimeTicks tailTicks ticks
        (timers.completionList.erase completion) =
          Timers.findPosition marked.eventTimeTicks tailTicks ticks
            marked.completionList :=
      findPosition_erase (Function.update_self _ _ _)
    rcases findPosition_spec marked.eventTimeTicks tailTicks ticks
        (timers.completionList.erase completion) with
      ⟨before, other, after, isErased, early, late, found⟩ | ⟨early, found⟩
    · have isOther : other ∈ timers.completionList.erase completion := by
        simp [isErased]
      have different : other ≠ completion := fun same =>
        notErased (same ▸ isOther)
      have notBefore : other ∉ before := by
        have nodupErased := nodup.erase completion
        rw [isErased] at nodupErased
        intro member
        exact (List.nodup_append.mp nodupErased).2.2 other member other
          List.mem_cons_self rfl
      refine ⟨before, other :: after, isErased, ?_, ?_, ?_⟩
      · intro node member
        rw [← timeOf (isErased ▸ List.mem_append_left _ member)]
        exact early node member
      · intro node isHead
        cases isHead
        rw [← timeOf isOther]
        exact late
      · refine finish before (other :: after) (.node other) isErased ?_ ?_
        · rw [if_neg markedNonempty, ← search, found]
        · have unlinked : (marked.unlink completion).completionList =
              before ++ other :: after := isErased
          rw [Timers.insertBeforeNode]
          simp only [different, if_false, unlinked,
            insertBefore_append notBefore]
    · have later : ticks < tailTicks := by
        rcases finds.2 with isNil | later | ⟨other, member, different, later⟩
        · exact absurd isNil isEmpty
        · exact later
        · have isErased : other ∈ timers.completionList.erase completion :=
            (List.mem_erase_of_ne different).mpr member
          have notLater := early other isErased
          rw [show marked.eventTimeTicks other = _ from timeOf isErased]
            at notLater
          omega
      rw [if_pos later] at found
      refine ⟨timers.completionList.erase completion, [], by simp, ?_, nofun, ?_⟩
      · intro node member
        rw [← timeOf member]
        exact early node member
      · refine finish _ [] .tail (by simp) ?_ ?_
        · rw [if_neg markedNonempty, ← search, found]
        · rfl

/-- Enqueuing keeps the queue. -/
theorem QueueWellFormed.enqueueTicks
    (wellFormed : QueueWellFormed attributes timers)
    {ticks tailTicks : Nat}
    (finds : FindsPlace timers completion ticks tailTicks) :
    QueueWellFormed attributes
      (timers.enqueueTicks completion ticks tailTicks) := by
  have nodup := wellFormed.nodup
  obtain ⟨before, after, isErased, early, late, result⟩ :=
    enqueueTicks_spec nodup finds
  have isOther {node : Nat} : node ∈ before ++ after ↔
      node ≠ completion ∧ node ∈ timers.completionList := by
    rw [← isErased]
    exact nodup.mem_erase_iff
  have sortedErased : (before ++ after).Pairwise (DueBefore timers) := by
    rw [← isErased]
    exact wellFormed.sorted.sublist List.erase_sublist
  rw [result]
  refine ⟨wellFormed.history.enqueued completion, ?_, ?_, ?_,
    wellFormed.continuations.erase completion, ?_⟩
  · intro node
    by_cases same : node = completion
    · subst same
      exact iff_of_true (List.mem_append_right _ List.mem_cons_self)
        (lastMark_cons_same rfl)
    · rw [lastMark_cons_other (Ne.symm same), ← wellFormed.pending,
        List.mem_append, List.mem_cons, or_left_comm, ← List.mem_append,
        isOther]
      simp [same]
  · intro node
    rw [wellFormed.continuations.mem_erase_iff, wellFormed.continued]
    by_cases same : node = completion
    · subst same
      have last : lastMark (.enqueued node :: timers.trace) node =
          some (.enqueued node) :=
        lastMark_cons_same rfl
      rw [last]
      exact iff_of_false (fun both => both.1 rfl) nofun
    · rw [lastMark_cons_other (Ne.symm same)]
      exact and_iff_right same
  · have timeOf {node : Nat} (member : node ∈ before ++ after) :
        Function.update timers.eventTimeTicks completion ticks node =
          timers.eventTimeTicks node :=
      Function.update_of_ne (isOther.mp member).1 _ _
    have kept : (before ++ after).Pairwise (DueBefore
        { completionList := before ++ completion :: after
          continuationList := timers.continuationList.erase completion
          eventTimeTicks :=
            Function.update timers.eventTimeTicks completion ticks
          compare := if before = [] then ticks else timers.compare
          trace := .enqueued completion :: timers.trace }) := by
      refine sortedErased.imp_of_mem ?_
      intro left right leftMember rightMember dueBefore
      apply dueBefore.mark ⟨timeOf leftMember, timeOf rightMember⟩ rfl
      · rintro ⟨⟩
        exact (isOther.mp leftMember).1 rfl
      · rintro ⟨⟩
        exact (isOther.mp rightMember).1 rfl
    obtain ⟨keptBefore, keptAfter, across⟩ := List.pairwise_append.mp kept
    refine List.pairwise_append.mpr
      ⟨keptBefore, List.pairwise_cons.mpr ⟨?_, keptAfter⟩, ?_⟩
    · -- Everything behind is due later than the first node behind.
      intro node member
      left
      simp only [Function.update_self]
      rw [timeOf (List.mem_append_right _ member)]
      cases after with
      | nil => cases member
      | cons first rest =>
          have firstLate := late first rfl
          rcases List.mem_cons.mp member with rfl | inRest
          · exact firstLate
          · have sortedAfter := (List.pairwise_append.mp sortedErased).2.1
            rcases (List.pairwise_cons.mp sortedAfter).1 node inRest with
              earlier | ⟨same, _⟩ <;> omega
    · intro node member other isBehind
      rcases List.mem_cons.mp isBehind with rfl | inAfter
      · have memberErased : node ∈ before ++ after :=
          List.mem_append_left _ member
        have different := (isOther.mp memberErased).1
        have notLater := early node member
        have isTime := timeOf memberErased
        rw [DueBefore]
        simp only [Function.update_self, isTime]
        rcases Nat.lt_or_eq_of_le notLater with earlier | same
        · exact .inl earlier
        · refine .inr ⟨same, ?_⟩
          rw [sinceEnqueued_same, sinceEnqueued_other]
          · exact Nat.succ_pos _
          · rintro ⟨⟩
            exact different rfl
      · exact across node member other inAfter
  · intro node member
    simp only at member ⊢
    by_cases same : node = completion
    · subst same
      rw [Function.update_self]
      exact finds.1
    · rw [Function.update_of_ne same]
      apply wellFormed.notIdle
      rw [List.mem_append, List.mem_cons, or_left_comm] at member
      rcases member with isNew | isOld
      · exact absurd isNew same
      · exact (isOther.mp (List.mem_append.mpr isOld)).2

/-- A completion leaves the lists, or goes to the continuations when it was
executed and is to be called later. -/
theorem QueueWellFormed.moveOn
    (wellFormed : QueueWellFormed attributes timers)
    {mark : Mark}
    (about : mark.completion = completion)
    (notEnqueued : mark ≠ .enqueued completion)
    (history : History (mark :: timers.trace))
    {continuations : List Nat}
    (nodup : continuations.Nodup)
    (members : ∀ node, node ∈ continuations ↔
      node ∈ timers.continuationList.erase completion ∨
        node = completion ∧ mark = .executed completion ∧
          (attributes completion).executeInISR = false ∧
          (attributes completion).hasEntryPoint = true) :
    QueueWellFormed attributes
      { (timers.unlink completion).mark mark with
        continuationList := continuations } := by
  have otherMark {node : Nat} (different : node ≠ completion) :
      mark.completion ≠ node := fun same => different (same ▸ about)
  refine ⟨history, ?_, ?_, ?_, nodup,
    fun node member => wellFormed.notIdle node (List.mem_of_mem_erase member)⟩
  · intro node
    simp only [Timers.mark, Timers.unlink]
    rw [wellFormed.nodup.mem_erase_iff]
    by_cases same : node = completion
    · subst same
      rw [lastMark_cons_same about]
      simpa using notEnqueued
    · rw [lastMark_cons_other (otherMark same), wellFormed.pending]
      exact and_iff_right same
  · intro node
    simp only [Timers.mark, Timers.unlink]
    rw [members, wellFormed.continuations.mem_erase_iff]
    by_cases same : node = completion
    · subst same
      rw [lastMark_cons_same about, Option.some.injEq]
      simp
    · rw [lastMark_cons_other (otherMark same), wellFormed.continued]
      simp [same]
  · have sortedErased : (timers.completionList.erase completion).Pairwise
        (DueBefore timers) :=
      wellFormed.sorted.sublist List.erase_sublist
    refine sortedErased.imp_of_mem ?_
    intro left right leftMember rightMember dueBefore
    have notSame {node : Nat}
        (member : node ∈ timers.completionList.erase completion) :
        mark ≠ .enqueued node := by
      have different := (wellFormed.nodup.mem_erase_iff.mp member).1
      rintro rfl
      exact different about
    exact dueBefore.mark ⟨rfl, rfl⟩ rfl (notSame leftMember)
      (notSame rightMember)

/-- A completion that was executed for good, called or aborted leaves the
lists. -/
theorem QueueWellFormed.retire
    (wellFormed : QueueWellFormed attributes timers)
    {mark : Mark}
    (about : mark.completion = completion)
    (notEnqueued : mark ≠ .enqueued completion)
    (history : History (mark :: timers.trace))
    (notWaiting : mark = .executed completion →
      ¬ ((attributes completion).executeInISR = false ∧
        (attributes completion).hasEntryPoint = true)) :
    QueueWellFormed attributes ((timers.unlink completion).mark mark) := by
  apply wellFormed.moveOn about notEnqueued history
    (wellFormed.continuations.erase completion)
  intro node
  exact (or_iff_left fun waiting => notWaiting waiting.2.1 waiting.2.2).symm

/-- A completion that is to be called later goes to the continuations. -/
theorem QueueWellFormed.continue
    (wellFormed : QueueWellFormed attributes timers)
    (history : History (.executed completion :: timers.trace))
    (userMode : (attributes completion).executeInISR = false)
    (entry : (attributes completion).hasEntryPoint = true) :
    QueueWellFormed attributes
      { (timers.unlink completion).mark (.executed completion) with
        continuationList :=
          timers.continuationList.erase completion ++ [completion] } := by
  have about : (Mark.executed completion).completion = completion := rfl
  refine wellFormed.moveOn about nofun history ?_ ?_
  · refine List.nodup_append.mpr ⟨wellFormed.continuations.erase completion,
      List.pairwise_singleton _ _, ?_⟩
    intro node member other isOther same
    rw [List.mem_singleton.mp isOther] at same
    exact wellFormed.continuations.not_mem_erase (same ▸ member)
  · intro node
    rw [List.mem_append, List.mem_singleton]
    simp [userMode, entry]

/-- Unlinking a node that is in no list. -/
theorem unlink_of_outside
    (outside : completion ∉ timers.completionList)
    (outside' : completion ∉ timers.continuationList) :
    timers.unlink completion = timers := by
  rw [Timers.unlink, List.erase_of_not_mem outside,
    List.erase_of_not_mem outside']

/-- A change of the compare value does not concern the lists. -/
theorem QueueWellFormed.setCompare
    (wellFormed : QueueWellFormed attributes timers)
    (ticks : Nat) :
    QueueWellFormed attributes (timers.setCompare ticks) :=
  ⟨wellFormed.history, wellFormed.pending, wellFormed.continued,
    wellFormed.sorted, wellFormed.continuations, wellFormed.notIdle⟩

/-- Aborting keeps the queue and programs the next time when the first
completion goes. -/
theorem abort_eq :
    timers.abort completion =
      ((timers.unlink completion).mark (.aborted completion)).setCompare
        (if timers.firstNode = .node completion then
          firstTicks (timers.unlink completion)
        else timers.compare) := by
  rw [Timers.abort]
  by_cases isFirst : timers.firstNode = .node completion
  · simp only [isFirst, if_true, firstTicks, Timers.mark]
    cases (timers.unlink completion).completionList <;> rfl
  · simp only [isFirst, if_false]
    rfl

theorem QueueWellFormed.abort
    (wellFormed : QueueWellFormed attributes timers)
    (completion : Nat) :
    QueueWellFormed attributes (timers.abort completion) := by
  rw [abort_eq]
  have retired : QueueWellFormed attributes
      ((timers.unlink completion).mark (.aborted completion)) :=
    wellFormed.retire rfl nofun (wellFormed.history.aborted completion) nofun
  exact retired.setCompare _

/-- What a callback calls finds its places. -/
def CallsFindPlace : Timers → List Timers.Call → Prop
  | _, [] => True
  | timers, .enqueueTicks completion ticks tailTicks :: rest =>
      FindsPlace timers completion ticks tailTicks ∧
        CallsFindPlace (timers.enqueueTicks completion ticks tailTicks) rest
  | timers, .abort completion :: rest =>
      CallsFindPlace (timers.abort completion) rest

theorem QueueWellFormed.calls
    {calls : List Timers.Call}
    (wellFormed : QueueWellFormed attributes timers)
    (find : CallsFindPlace timers calls) :
    QueueWellFormed attributes (calls.foldl Timers.call timers) := by
  induction calls generalizing timers with
  | nil => exact wellFormed
  | cons call rest inductionHypothesis =>
      cases call with
      | enqueueTicks completion ticks tailTicks =>
          exact inductionHypothesis (wellFormed.enqueueTicks find.1) find.2
      | abort completion =>
          exact inductionHypothesis (wellFormed.abort completion) find

/-- The first completion can be executed without harm: in the interrupt, the
calls of its callback find their places and leave nothing behind it, or itself
as the first; later, when what is next is due at the same time; and without a
callback, when nothing is left. -/
def ExecutionSettles
    (attributes : Nat → Completion)
    (timers : Timers)
    (completion : Nat)
    (calls : List Timers.Call) : Prop :=
  let executed := (timers.unlink completion).mark (.executed completion)
  if (attributes completion).executeInISR then
    let left := Timers.callBack attributes executed completion calls
    ((attributes completion).hasEntryPoint = true →
      CallsFindPlace (executed.mark (.called completion)) calls) ∧
    (left.completionList = [] ∨ completion ∈ left.completionList ∧
      left.eventTimeTicks completion = firstTicks left)
  else if (attributes completion).hasEntryPoint then
    timers.eventTimeTicks completion = firstTicks executed
  else executed.completionList = []

/-- Executing the first completion. -/
theorem QueueWellFormed.execute
    (wellFormed : QueueWellFormed attributes timers)
    (isPending : completion ∈ timers.completionList)
    {calls : List Timers.Call}
    (settles : ExecutionSettles attributes timers completion calls) :
    let left := Timers.execute attributes (timers.unlink completion)
      completion calls
    QueueWellFormed attributes left ∧
      (if left.isLinked completion then left.eventTimeTicks completion
        else HAL_COMPLETION_IDLE_VALUE) = firstTicks left := by
  have nodup := wellFormed.nodup
  have continuations := wellFormed.continuations
  have again : ((timers.unlink completion).mark (.executed completion)).unlink
      completion = (timers.unlink completion).mark (.executed completion) :=
    unlink_of_outside nodup.not_mem_erase continuations.not_mem_erase
  have history : History (.executed completion :: timers.trace) :=
    wellFormed.history.executed ((wellFormed.pending completion).mp isPending)
  unfold ExecutionSettles at settles
  simp only at settles ⊢
  rw [Timers.execute]
  by_cases inISR : (attributes completion).executeInISR = true
  · rw [if_pos inISR] at settles ⊢
    obtain ⟨find, left⟩ := settles
    have retired : QueueWellFormed attributes
        ((timers.unlink completion).mark (.executed completion)) :=
      wellFormed.retire rfl nofun history fun _ both => by
        rw [inISR] at both
        exact Bool.noConfusion both.1
    have wellFormed' : QueueWellFormed attributes (Timers.callBack attributes
        ((timers.unlink completion).mark (.executed completion)) completion
        calls) := by
      rw [Timers.callBack]
      by_cases entry : (attributes completion).hasEntryPoint = true
      · rw [if_pos entry]
        have last : lastMark (.executed completion :: timers.trace) completion =
            some (.executed completion) :=
          lastMark_cons_same rfl
        have called : QueueWellFormed attributes
            ((((timers.unlink completion).mark
              (.executed completion)).unlink completion).mark
                (.called completion)) :=
          retired.retire rfl nofun (history.called last) nofun
        rw [again] at called
        exact called.calls (find entry)
      · rw [if_neg entry]
        exact retired
    refine ⟨wellFormed', ?_⟩
    generalize Timers.callBack attributes
      ((timers.unlink completion).mark (.executed completion)) completion
      calls = result at left wellFormed'
    have notContinued : completion ∉ result.continuationList := by
      intro member
      have userMode := ((wellFormed'.continued completion).mp member).2.1
      rw [inISR] at userMode
      cases userMode
    rcases left with isEmpty | ⟨member, isFirst⟩
    · have notLinked : result.isLinked completion = false := by
        simp [Timers.isLinked, isEmpty, notContinued]
      rw [notLinked, firstTicks, isEmpty]
      rfl
    · have linked : result.isLinked completion = true := by
        simp [Timers.isLinked, member]
      rw [linked, if_pos rfl, isFirst]
  · have userMode : (attributes completion).executeInISR = false := by
      simpa using inISR
    rw [if_neg inISR] at settles ⊢
    rw [Timers.enqueue]
    by_cases entry : (attributes completion).hasEntryPoint = true
    · rw [if_pos entry] at settles ⊢
      simp only [again]
      refine ⟨wellFormed.continue history userMode entry, ?_⟩
      rw [if_pos]
      · exact settles
      · simp [Timers.isLinked]
    · rw [if_neg entry] at settles ⊢
      have retired : QueueWellFormed attributes
          ((timers.unlink completion).mark (.executed completion)) :=
        wellFormed.retire rfl nofun history fun _ both => entry both.2
      refine ⟨retired, ?_⟩
      rw [if_neg, firstTicks, settles]
      simp [Timers.isLinked, Timers.mark, Timers.unlink,
        nodup.not_mem_erase, continuations.not_mem_erase]

/-- The times of the pending completions can be told from the idle value. -/
theorem QueueWellFormed.compareRight
    (wellFormed : QueueWellFormed attributes timers)
    (programmed : timers.compare = firstTicks timers) :
    CompareRight timers := by
  refine ⟨programmed, ?_⟩
  rw [programmed, firstTicks]
  cases isList : timers.completionList with
  | nil => exact iff_of_true rfl rfl
  | cons first rest =>
      have member : first ∈ timers.completionList := by
        rw [isList]
        exact List.mem_cons_self
      exact iff_of_false (wellFormed.notIdle first member) nofun

/-- What an insertion needs to leave the compare value right: to come first, or
not to take the first place away from what is programmed. -/
def ComesFirst (timers : Timers) (completion ticks : Nat) : Prop :=
  ∀ other ∈ timers.completionList, other ≠ completion →
    ticks < timers.eventTimeTicks other

/-- A completion that is the first one is no earlier than what comes behind
it. -/
def LeavesFirst (timers : Timers) (completion : Nat) : Prop :=
  timers.firstNode = .node completion →
    timers.eventTimeTicks completion = firstTicks (timers.unlink completion)

/-- The first of the nodes that are left. -/
theorem firstTicks_eq_head
    {timers' : Timers}
    {first : Nat}
    {rest : List Nat}
    (isList : timers'.completionList = first :: rest) :
    firstTicks timers' = timers'.eventTimeTicks first := by
  rw [firstTicks, isList]

/-- An insertion that comes first programs its time. -/
theorem enqueueTicks_compare
    (nodup : timers.completionList.Nodup)
    {ticks tailTicks : Nat}
    (finds : FindsPlace timers completion ticks tailTicks)
    (settles : ComesFirst timers completion ticks ∨
      timers.compare = firstTicks timers ∧ LeavesFirst timers completion) :
    (timers.enqueueTicks completion ticks tailTicks).compare =
      firstTicks (timers.enqueueTicks completion ticks tailTicks) := by
  obtain ⟨before, after, isErased, early, late, result⟩ :=
    enqueueTicks_spec nodup finds
  rw [result]
  cases before with
  | nil => simp [firstTicks]
  | cons first rest =>
      have isOther : first ∈ timers.completionList.erase completion := by
        rw [isErased]
        exact List.mem_cons_self
      have both := nodup.mem_erase_iff.mp isOther
      simp only [firstTicks, List.cons_append, reduceCtorEq, if_false]
      rw [Function.update_of_ne both.1]
      rcases settles with comesFirst | ⟨programmed, leavesFirst⟩
      · have notLater := early first List.mem_cons_self
        have later := comesFirst first both.2 both.1
        omega
      · have isNext : firstTicks (timers.unlink completion) =
            timers.eventTimeTicks first :=
          firstTicks_eq_head isErased
        rw [programmed]
        by_cases isFirst : timers.firstNode = .node completion
        · rw [← isNext, ← leavesFirst isFirst]
          rw [Timers.firstNode] at isFirst
          cases isList : timers.completionList with
          | nil => simp [isList] at isFirst
          | cons head others =>
              rw [isList, NodePointer.node.injEq] at isFirst
              rw [firstTicks_eq_head isList, isFirst]
        · rw [← isNext]
          cases isList : timers.completionList with
          | nil => simp [isList] at isOther
          | cons head others =>
              have different : head ≠ completion := by
                rintro rfl
                exact isFirst (by rw [Timers.firstNode, isList])
              have isUnlinked : (timers.unlink completion).completionList =
                  head :: others.erase completion := by
                rw [Timers.unlink, isList]
                exact List.erase_cons_tail (by simpa using different)
              rw [firstTicks_eq_head isList, firstTicks_eq_head isUnlinked]
              rfl

/-- An abort programs the next time when it takes away the first. -/
theorem abort_compare
    (settles : timers.firstNode = .node completion ∨
      timers.compare = firstTicks timers) :
    (timers.abort completion).compare =
      firstTicks (timers.abort completion) := by
  rw [abort_eq]
  by_cases isFirst : timers.firstNode = .node completion
  · rw [if_pos isFirst]
    rfl
  · rw [if_neg isFirst]
    have programmed := settles.resolve_left isFirst
    rw [Timers.setCompare, programmed]
    cases isList : timers.completionList with
    | nil =>
        have isUnlinked : (timers.unlink completion).completionList = [] := by
          rw [Timers.unlink, isList]
          rfl
        rw [firstTicks, isList]
        simp only [firstTicks, Timers.mark, isUnlinked]
    | cons head others =>
        have different : head ≠ completion := by
          rintro rfl
          exact isFirst (by rw [Timers.firstNode, isList])
        have isUnlinked : (timers.unlink completion).completionList =
            head :: others.erase completion := by
          rw [Timers.unlink, isList]
          exact List.erase_cons_tail (by simpa using different)
        rw [firstTicks_eq_head isList]
        simp only [firstTicks, Timers.mark, isUnlinked]
        rfl

/-- Dequeuing keeps the queue and programs the next time where the execution of
the first completion does. -/
theorem QueueWellFormed.dequeueAndExec
    (wellFormed : QueueWellFormed attributes timers)
    {now : Nat}
    {calls : List Timers.Call}
    (settles : ∀ first rest, timers.completionList = first :: rest →
      timers.eventTimeTicks first ≤ now →
        ExecutionSettles attributes timers first calls) :
    let left := Timers.dequeueAndExec attributes timers now calls
    QueueWellFormed attributes left ∧
      (timers.completionList ≠ [] ∨ timers.compare = firstTicks timers →
        left.compare = firstTicks left) := by
  simp only
  rw [Timers.dequeueAndExec]
  cases isList : timers.completionList with
  | nil => exact ⟨wellFormed, fun settled => settled.resolve_left nofun⟩
  | cons first rest =>
      have member : first ∈ timers.completionList := by
        rw [isList]
        exact List.mem_cons_self
      by_cases expired : timers.eventTimeTicks first ≤ now
      · simp only [if_pos expired]
        have executed :=
          wellFormed.execute member (settles first rest isList expired)
        simp only at executed
        exact ⟨executed.1.setCompare _, fun _ => executed.2⟩
      · simp only [if_neg expired]
        have linked : timers.isLinked first = true := by
          simp [Timers.isLinked, member]
        refine ⟨wellFormed.setCompare _, fun _ => ?_⟩
        rw [linked, if_pos rfl, Timers.setCompare]
        exact (firstTicks_eq_head isList).symm

/-- The continuation that is called leaves its list. -/
theorem QueueWellFormed.dequeue_And_Execute
    (wellFormed : QueueWellFormed attributes timers) :
    QueueWellFormed attributes timers.dequeue_And_Execute ∧
      timers.dequeue_And_Execute.compare = timers.compare ∧
      firstTicks timers.dequeue_And_Execute = firstTicks timers := by
  rw [Timers.dequeue_And_Execute]
  cases isList : timers.continuationList with
  | nil => exact ⟨wellFormed, rfl, rfl⟩
  | cons completion rest =>
      have member : completion ∈ timers.continuationList := by
        rw [isList]
        exact List.mem_cons_self
      have executed := ((wellFormed.continued completion).mp member).1
      have notPending : completion ∉ timers.completionList := by
        rw [wellFormed.pending, executed]
        nofun
      refine ⟨wellFormed.retire rfl nofun (wellFormed.history.called executed)
        nofun, rfl, ?_⟩
      have same : (timers.unlink completion).completionList =
          timers.completionList :=
        List.erase_of_not_mem notPending
      simp only [firstTicks, Timers.mark, same]
      rfl

end Operations

/-! ## Runs -/

/-- A thread sleeps with a compare value of its own. -/
def OwnCompare (state : TimerState) : Prop :=
  (state.waiting = some .nilCompare ∨ state.waiting = some .resetCompare) ∧
    state.timers.compare ≠ firstTicks state.timers

/-- The condition under which a step keeps the queue and its compare value. -/
def StepSettles (attributes : Nat → Completion) (state : TimerState) :
    TimerEvent → Prop
  | .enqueueTicks completion ticks tailTicks =>
      FindsPlace state.timers completion ticks tailTicks ∧
        (ComesFirst state.timers completion ticks ∨
          ¬ OwnCompare state ∧ LeavesFirst state.timers completion)
  | .dequeueAndExec now calls =>
      (state.timers.completionList = [] → ¬ OwnCompare state) ∧
        ∀ first rest, state.timers.completionList = first :: rest →
          state.timers.eventTimeTicks first ≤ now →
            ExecutionSettles attributes state.timers first calls
  | .abort completion =>
      state.timers.firstNode = .node completion ∨ ¬ OwnCompare state
  | .dequeue_And_Execute => ¬ OwnCompare state
  | .sleep _ => True
  | .wake tailTicks =>
      (state.waiting = some .nilCompare →
        state.timers.completionList = []) ∧
      (state.waiting = some .resetCompare →
        state.timers.completionList = [] →
          tailTicks = HAL_COMPLETION_IDLE_VALUE)

/-- The lists are in order, and the compare value is programmed unless a thread
sleeps with its own. -/
structure TimersInvariant (attributes : Nat → Completion)
    (state : TimerState) : Prop where
  wellFormed : QueueWellFormed attributes state.timers
  programmed : state.waiting = none ∨ state.waiting = some .keep →
    state.timers.compare = firstTicks state.timers

section Runs

variable {attributes : Nat → Completion} {state later : TimerState}

theorem TimersInvariant.start
    (begins : TimerStart state) :
    TimersInvariant attributes state := by
  obtain ⟨noneCompletes, noneContinues, idle, noMarks, _⟩ := begins
  refine ⟨⟨?_, ?_, ?_, ?_, ?_, ?_⟩, fun _ => ?_⟩
  · rw [noMarks]
    exact .start
  · simp [noneCompletes, noMarks, lastMark]
  · simp [noneContinues, noMarks, lastMark]
  · simp [noneCompletes]
  · simp [noneContinues]
  · simp [noneCompletes]
  · rw [idle, firstTicks, noneCompletes]

theorem TimersInvariant.compare
    (invariant : TimersInvariant attributes state)
    (shared : ¬ OwnCompare state) :
    state.timers.compare = firstTicks state.timers := by
  by_contra other
  cases sleeps : state.waiting with
  | none => exact other (invariant.programmed (.inl sleeps))
  | some waitState =>
      cases waitState with
      | keep => exact other (invariant.programmed (.inr sleeps))
      | nilCompare => exact shared ⟨.inl sleeps, other⟩
      | resetCompare => exact shared ⟨.inr sleeps, other⟩

/-- A step that settles keeps the invariant, and programs the compare value
unless it only begins to sleep. -/
theorem TimersInvariant.step
    (invariant : TimersInvariant attributes state)
    {event : TimerEvent}
    (settles : StepSettles attributes state event)
    (steps : TimerStep attributes state event later) :
    TimersInvariant attributes later ∧
      ((∀ expireTimeInTicks, event ≠ .sleep expireTimeInTicks) →
        later.timers.compare = firstTicks later.timers) := by
  have wellFormed := invariant.wellFormed
  cases steps with
  | enqueueTicks timers waiting completion ticks tailTicks =>
      have programmed := enqueueTicks_compare wellFormed.nodup settles.1
        (settles.2.imp_right fun both => ⟨invariant.compare both.1, both.2⟩)
      exact ⟨⟨wellFormed.enqueueTicks settles.1, fun _ => programmed⟩,
        fun _ => programmed⟩
  | dequeueAndExec timers waiting now calls =>
      obtain ⟨wellFormed', compares⟩ := wellFormed.dequeueAndExec settles.2
      have programmed := compares (by
        by_cases isEmpty : timers.completionList = []
        · exact .inr (invariant.compare (settles.1 isEmpty))
        · exact .inl isEmpty)
      exact ⟨⟨wellFormed', fun _ => programmed⟩, fun _ => programmed⟩
  | abort timers waiting completion =>
      have programmed := abort_compare (settles.imp_right invariant.compare)
      exact ⟨⟨wellFormed.abort completion, fun _ => programmed⟩,
        fun _ => programmed⟩
  | dequeue_And_Execute timers waiting =>
      obtain ⟨wellFormed', compare, first⟩ := wellFormed.dequeue_And_Execute
      have programmed : timers.dequeue_And_Execute.compare =
          firstTicks timers.dequeue_And_Execute := by
        rw [compare, first]
        exact invariant.compare settles
      exact ⟨⟨wellFormed', fun _ => programmed⟩, fun _ => programmed⟩
  | sleep timers expireTimeInTicks =>
      refine ⟨⟨?_, ?_⟩, fun notSleep => absurd rfl (notSleep _)⟩
      · simp only [Timers.waitForInterrupts]
        split
        · exact wellFormed.setCompare _
        · split
          · exact wellFormed.setCompare _
          · exact wellFormed
      · simp only [Timers.waitForInterrupts]
        split
        · nofun
        · split
          · nofun
          · exact fun _ => invariant.programmed (.inl rfl)
  | wake timers waitState tailTicks =>
      obtain ⟨whenNil, whenReset⟩ := settles
      have both : QueueWellFormed attributes
          (timers.wakeUp waitState tailTicks) ∧
          (timers.wakeUp waitState tailTicks).compare =
            firstTicks (timers.wakeUp waitState tailTicks) := by
        cases waitState with
        | nilCompare =>
            refine ⟨wellFormed.setCompare _, ?_⟩
            have isEmpty : timers.completionList = [] := whenNil rfl
            simp [Timers.wakeUp, Timers.setCompare, firstTicks, isEmpty]
        | resetCompare =>
            rw [Timers.wakeUp]
            cases isList : timers.completionList with
            | nil =>
                refine ⟨wellFormed.setCompare _, ?_⟩
                have idle : tailTicks = HAL_COMPLETION_IDLE_VALUE :=
                  whenReset rfl isList
                simp [Timers.setCompare, firstTicks, isList, idle]
            | cons first rest =>
                refine ⟨wellFormed.setCompare _, ?_⟩
                simp [Timers.setCompare, firstTicks, isList]
        | keep => exact ⟨wellFormed, invariant.programmed (.inr rfl)⟩
      exact ⟨⟨both.1, fun _ => both.2⟩, fun _ => both.2⟩

end Runs

/-- In every run whose steps settle, what was enqueued and not aborted is
pending until it is executed, the pending completions are in the order of their
times, and the compare value is right after each operation. -/
theorem completions_queued
    {attributes : Nat → Completion}
    {taken : List (TimerState × TimerEvent)}
    {state : TimerState}
    (run : Run TimerStart (TimerStep attributes) taken state)
    (settles : ∀ entry ∈ taken, StepSettles attributes entry.1 entry.2) :
    QueueWellFormed attributes state.timers ∧
      ((∀ before expireTimeInTicks,
          taken.getLast? ≠ some (before, .sleep expireTimeInTicks)) →
        CompareRight state.timers) := by
  have kept : ∀ state event later, TimersInvariant attributes state →
      StepSettles attributes state event →
      TimerStep attributes state event later →
      TimersInvariant attributes later :=
    fun state event later invariant settles steps =>
      (invariant.step settles steps).1
  have invariant := run.invariant_of (TimersInvariant attributes)
    (StepSettles attributes) (fun _ => TimersInvariant.start) kept settles
  refine ⟨invariant.wellFormed, fun operates => ?_⟩
  apply invariant.wellFormed.compareRight
  cases run with
  | start begins =>
      have initially : TimersInvariant attributes state := .start begins
      exact initially.programmed (.inl begins.2.2.2.2)
  | @next taken before _ event run steps =>
      rw [List.forall_mem_append, List.forall_mem_singleton] at settles
      have earlier := run.invariant_of (TimersInvariant attributes)
        (StepSettles attributes) (fun _ => TimersInvariant.start) kept
        settles.1
      apply (earlier.step settles.2 steps).2
      rintro expireTimeInTicks rfl
      apply operates before expireTimeInTicks
      rw [List.getLast?_append]
      rfl

/-- No completion is programmed. -/
def idleTimers : TimerState where
  timers :=
    { completionList := []
      continuationList := []
      eventTimeTicks := fun _ => 0
      compare := HAL_COMPLETION_IDLE_VALUE
      trace := [] }
  waiting := none

theorem idleTimers_start : TimerStart idleTimers := by
  exact ⟨rfl, rfl, rfl, rfl, rfl⟩

/-- Every completion executes in the interrupt and calls nothing. -/
def silentCompletions (_ : Nat) : Completion :=
  { executeInISR := true, hasEntryPoint := false }

/-- The completions 1 and 2 are pending at the times 20 and 10. -/
def twoPending : Timers :=
  (idleTimers.timers.enqueueTicks 1 20 0).enqueueTicks 2 10 0

theorem twoPending_list : twoPending.completionList = [2, 1] := by
  decide

/-- The second completion comes first. -/
theorem twoPending_comesFirst :
    ComesFirst (idleTimers.timers.enqueueTicks 1 20 0) 2 10 := by
  have onlyFirst :
      (idleTimers.timers.enqueueTicks 1 20 0).completionList = [1] := by
    decide
  rw [ComesFirst, onlyFirst, List.forall_mem_singleton]
  exact fun _ => by decide

/-- Two completions are pending. The interrupt comes before their times, the
first is aborted, and the other is executed at its time. -/
theorem completions_queued_two :
    ∃ taken state,
      Run TimerStart (TimerStep silentCompletions) taken state ∧
        taken.map Prod.snd =
          [.enqueueTicks 1 20 0, .enqueueTicks 2 10 0, .dequeueAndExec 5 [],
            .abort 2, .dequeueAndExec 25 []] ∧
        QueueWellFormed silentCompletions state.timers ∧
        CompareRight state.timers := by
  have first : Run TimerStart (TimerStep silentCompletions) [] idleTimers :=
    .start idleTimers_start
  have pending := (first.next (.enqueueTicks _ _ 1 20 0)).next
    (.enqueueTicks _ _ 2 10 0)
  have aborted := (pending.next (.dequeueAndExec _ _ 5 [])).next
    (.abort _ _ 2)
  have run := aborted.next (.dequeueAndExec _ _ 25 [])
  have notOwn : ∀ timers, ¬ OwnCompare ⟨timers, none⟩ := by
    intro timers own
    simp [OwnCompare] at own
  have both := completions_queued run (by
    simp only [List.nil_append, List.cons_append, List.forall_mem_cons,
      List.not_mem_nil, IsEmpty.forall_iff, implies_true, and_true]
    refine ⟨⟨⟨by decide, .inl rfl⟩, .inl ?_⟩,
      ⟨⟨by decide, .inr (.inr ⟨1, by decide⟩)⟩, .inl twoPending_comesFirst⟩,
      ⟨fun _ => notOwn _, ?_⟩, .inl (by decide), ⟨fun _ => notOwn _, ?_⟩⟩
    · simp [ComesFirst, idleTimers]
    · -- neither time has come
      intro completion rest isList expired
      have isSecond : completion = 2 := by
        simpa using (congrArg List.head? (isList.symm.trans twoPending_list))
      subst isSecond
      exact absurd expired (by decide)
    · -- only the first completion is left
      intro completion rest isList _
      have isFirst : completion = 1 := by
        have alone : _ = [1] := isList.symm.trans (by decide)
        simpa using congrArg List.head? alone
      subst isFirst
      exact ⟨by simp [silentCompletions], .inl (by decide)⟩)
  exact ⟨_, _, run, rfl, both.1, both.2 (by simp)⟩

/-- Two completions are pending, and the first is executed: the compare value
becomes idle although the second is pending. -/
theorem completions_not_queued :
    ¬ ∀ (attributes : Nat → Completion)
        (taken : List (TimerState × TimerEvent)) (state : TimerState),
      Run TimerStart (TimerStep attributes) taken state →
        QueueWellFormed attributes state.timers ∧
          ((∀ before expireTimeInTicks,
              taken.getLast? ≠ some (before, .sleep expireTimeInTicks)) →
            CompareRight state.timers) := by
  intro holds
  have first : Run TimerStart (TimerStep silentCompletions) [] idleTimers :=
    .start idleTimers_start
  have run := ((first.next (.enqueueTicks _ _ 1 10 100)).next
    (.enqueueTicks _ _ 2 20 100)).next (.dequeueAndExec _ _ 15 [])
  have right := (holds silentCompletions _ _ run).2 (by simp)
  have pending := right.2.mp (by decide)
  exact absurd pending (by decide)

end Pal

end NanoClr
