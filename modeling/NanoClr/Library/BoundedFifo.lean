import NanoClr.Library.TransitionSystem
import Mathlib.Tactic.Common

/-!
# Bounded queues

A queue of bounded capacity that accepts and hands out several items at once:
what its events do to the items it holds, and that the items come out in the
order in which they were put in.
-/

namespace NanoClr

/-- An event of a queue: items are offered and a number of them is accepted, a
number of items is asked for and some are taken, the item of an index is looked
at, or the items are kept. -/
inductive FifoEvent (α : Type)
  | put (offered : List α) (accepted : Nat)
  | take (requested : Nat) (taken : List α)
  | look (index : Int) (seen : Option α)
  | keep

/-- The item of an index, counted from the oldest one. -/
def itemAt {α : Type} (contents : List α) (index : Int) : Option α :=
  if index < 0 then none else contents[index.toNat]?

/-- What an event does to the items of a queue. An offer is refused only by a
full queue, and a request only by an empty one. -/
def FifoStep {α : Type} (capacity : Nat) (contents : List α) :
    FifoEvent α → List α → Prop
  | .put offered accepted, later =>
      accepted ≤ offered.length ∧
        (offered ≠ [] → contents.length < capacity → 0 < accepted) ∧
        contents.length + accepted ≤ capacity ∧
        later = contents ++ offered.take accepted
  | .take requested taken, later =>
      taken.length ≤ requested ∧
        (0 < requested → contents ≠ [] → taken ≠ []) ∧
        contents = taken ++ later
  | .look index seen, later =>
      seen = itemAt contents index ∧ later = contents
  | .keep, later => later = contents

/-- A queue accepts as many items as it has room for, and hands out as many as
it has. -/
def FifoEvent.Greedy {α : Type} (capacity : Nat) (contents : List α) :
    FifoEvent α → Prop
  | .put offered accepted =>
      accepted = min offered.length (capacity - contents.length)
  | .take requested taken => taken.length = min requested contents.length
  | .look _ _ | .keep => True

/-- A run of a queue that is empty at first. -/
abbrev FifoRun {α : Type} (capacity : Nat) :
    List (List α × FifoEvent α) → List α → Prop :=
  Run (fun contents => contents = []) (FifoStep capacity)

/-- A run of a queue that accepts and hands out as much as it can. -/
abbrev GreedyRun {α : Type} (capacity : Nat) :
    List (List α × FifoEvent α) → List α → Prop :=
  Run (fun contents => contents = []) fun contents event later =>
    FifoStep capacity contents event later ∧ event.Greedy capacity contents

namespace FifoEvent

variable {α : Type}

/-- The items that go in. -/
def entering : FifoEvent α → List α
  | put offered accepted => offered.take accepted
  | take _ _ => []
  | look _ _ => []
  | keep => []

/-- The items that come out. -/
def leaving : FifoEvent α → List α
  | put _ _ => []
  | take _ taken => taken
  | look _ _ => []
  | keep => []

/-- The number of items that go in or come out. -/
def count (event : FifoEvent α) : Nat :=
  match event with
  | put _ accepted => accepted
  | take _ taken => taken.length
  | look _ _ | keep => 0

end FifoEvent

section Runs

variable
  {α : Type}
  {capacity : Nat}
  {contents later : List α}
  {event : FifoEvent α}
  {taken : List (List α × FifoEvent α)}

theorem FifoStep.conserves
    (steps : FifoStep capacity contents event later) :
    contents ++ event.entering = event.leaving ++ later := by
  cases event with
  | put offered accepted => exact steps.2.2.2.symm
  | take requested taken =>
      rw [FifoEvent.entering, List.append_nil]
      exact steps.2.2
  | look index seen =>
      rw [FifoEvent.entering, List.append_nil, steps.2]
      rfl
  | keep =>
      rw [FifoEvent.entering, List.append_nil, steps]
      rfl

/-- First in, first out: what was put in is what came out, followed by what is
still there. -/
theorem FifoRun.inOrder
    (run : FifoRun capacity taken contents) :
    taken.flatMap (fun entry => entry.2.entering) =
      taken.flatMap (fun entry => entry.2.leaving) ++ contents := by
  induction run with
  | start empty => rw [empty]; rfl
  | @next taken state later event run steps inductionHypothesis =>
      simp only [List.flatMap_append, List.flatMap_singleton]
      rw [inductionHypothesis, List.append_assoc, List.append_assoc,
        steps.conserves]

theorem GreedyRun.fifo
    (run : GreedyRun capacity taken contents) :
    FifoRun capacity taken contents := by
  induction run with
  | start empty => exact .start empty
  | next _ steps inductionHypothesis =>
      exact .next inductionHypothesis steps.1

end Runs

end NanoClr
