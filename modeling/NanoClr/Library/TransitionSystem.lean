import Mathlib.Algebra.Ring.Int.Defs
import Mathlib.Algebra.Ring.Nat
import Mathlib.Logic.Relation

/-!
# Transition systems

The states that runs of a step relation reach, and the rule that an invariant
of the steps holds in all of them.
-/

namespace NanoClr

/-- The states that are reached from the initial ones. -/
def Reachable {σ : Type} (initial : σ → Prop) (step : σ → σ → Prop)
    (state : σ) : Prop :=
  ∃ start, initial start ∧ Relation.ReflTransGen step start state

namespace Reachable

variable {σ : Type} {initial : σ → Prop} {step : σ → σ → Prop}

theorem start {state : σ} (holds : initial state) :
    Reachable initial step state :=
  ⟨state, holds, Relation.ReflTransGen.refl⟩

theorem next {state later : σ}
    (reachable : Reachable initial step state)
    (steps : step state later) :
    Reachable initial step later := by
  obtain ⟨first, holds, run⟩ := reachable
  exact ⟨first, holds, run.tail steps⟩

/-- What holds initially and is kept by every step from a reachable state holds
in every reachable state. -/
theorem invariant
    {holds : σ → Prop}
    (initially : ∀ state, initial state → holds state)
    (kept : ∀ state later, Reachable initial step state → holds state →
      step state later → holds later)
    {state : σ}
    (reachable : Reachable initial step state) :
    holds state := by
  obtain ⟨first, begins, run⟩ := reachable
  suffices both : Reachable initial step state ∧ holds state from both.2
  induction run with
  | refl => exact ⟨start begins, initially first begins⟩
  | tail _ steps inductionHypothesis =>
      exact ⟨inductionHypothesis.1.next steps,
        kept _ _ inductionHypothesis.1 inductionHypothesis.2 steps⟩

end Reachable

/-! ## Runs with their events -/

/-- A run: the events it took, each with the state it was taken in, and the
state it leads to. -/
inductive Run {σ ε : Type} (initial : σ → Prop) (step : σ → ε → σ → Prop) :
    List (σ × ε) → σ → Prop
  | start {state : σ} (begins : initial state) : Run initial step [] state
  | next {taken : List (σ × ε)} {state later : σ} {event : ε}
      (run : Run initial step taken state)
      (steps : step state event later) :
      Run initial step (taken ++ [(state, event)]) later

/-- The events of a list, each with the state it is taken in, where the next
state is a function of both. -/
def trail {σ ε : Type} (next : σ → ε → σ) (state : σ) : List ε → List (σ × ε)
  | [] => []
  | event :: events => (state, event) :: trail next (next state event) events

/-- Steps that all meet a condition lead from one state to another. -/
def Leads {σ ε : Type} (step : σ → ε → σ → Prop) (condition : σ → ε → Prop) :
    σ → σ → Prop :=
  Relation.ReflTransGen fun state later =>
    ∃ event, condition state event ∧ step state event later

namespace Run

variable {σ ε : Type} {initial : σ → Prop} {step : σ → ε → σ → Prop}

/-- A run goes on along the events of a list. -/
theorem follow
    (next : σ → ε → σ)
    {events : List ε}
    {taken : List (σ × ε)}
    {state : σ}
    (run : Run initial step taken state)
    (steps : ∀ entry ∈ trail next state events,
      step entry.1 entry.2 (next entry.1 entry.2)) :
    Run initial step (taken ++ trail next state events)
      (events.foldl next state) := by
  induction events generalizing taken state with
  | nil =>
      rw [trail, List.append_nil]
      exact run
  | cons event events inductionHypothesis =>
      rw [trail, List.forall_mem_cons] at steps
      have extended := inductionHypothesis (run.next steps.1) steps.2
      rw [List.append_assoc] at extended
      exact extended

/-- A run goes on along steps that meet a condition. -/
theorem extend
    {condition : σ → ε → Prop}
    {taken : List (σ × ε)}
    {state later : σ}
    (run : Run initial step taken state)
    (leads : Leads step condition state later) :
    ∃ more, Run initial step (taken ++ more) later ∧
      ∀ entry ∈ more, condition entry.1 entry.2 := by
  induction leads with
  | refl => exact ⟨[], by simpa using run, by simp⟩
  | @tail middle later _ steps inductionHypothesis =>
      obtain ⟨more, extended, met⟩ := inductionHypothesis
      obtain ⟨event, meets, steps⟩ := steps
      refine ⟨more ++ [(middle, event)], ?_, ?_⟩
      · rw [← List.append_assoc]
        exact extended.next steps
      · rw [List.forall_mem_append, List.forall_mem_singleton]
        exact ⟨met, meets⟩

/-- An invariant that is kept by the steps that meet a condition holds after
every run whose steps all meet it. -/
theorem invariant_of
    (holds : σ → Prop)
    (condition : σ → ε → Prop)
    (initially : ∀ state, initial state → holds state)
    (kept : ∀ state event later, holds state → condition state event →
      step state event later → holds later)
    {taken : List (σ × ε)}
    {state : σ}
    (run : Run initial step taken state)
    (met : ∀ entry ∈ taken, condition entry.1 entry.2) :
    holds state := by
  induction run with
  | start begins => exact initially _ begins
  | @next taken state later event run steps inductionHypothesis =>
      have before : ∀ entry ∈ taken, condition entry.1 entry.2 :=
        fun entry member => met entry (List.mem_append_left _ member)
      have now : condition state event :=
        met (state, event) (List.mem_append_right _ (List.mem_singleton.mpr rfl))
      exact kept state event later (inductionHypothesis before) now steps

/-- What the steps that meet a condition have under an invariant that they keep,
all steps of a run have whose steps all meet it. -/
theorem forall_of
    (holds : σ → Prop)
    (property condition : σ → ε → Prop)
    (initially : ∀ state, initial state → holds state)
    (kept : ∀ state event later, holds state → condition state event →
      step state event later → holds later)
    (has : ∀ state event later, holds state → condition state event →
      step state event later → property state event)
    {taken : List (σ × ε)}
    {state : σ}
    (run : Run initial step taken state)
    (met : ∀ entry ∈ taken, condition entry.1 entry.2) :
    ∀ entry ∈ taken, property entry.1 entry.2 := by
  induction run with
  | start begins => simp
  | @next taken state later event run steps inductionHypothesis =>
      rw [List.forall_mem_append, List.forall_mem_singleton] at met ⊢
      refine ⟨inductionHypothesis met.1, has _ _ _ ?_ met.2 steps⟩
      exact run.invariant_of holds condition initially kept met.1

/-- Where a property of a step and a condition agree under an invariant that
the condition keeps, the steps of a run all have the property exactly when they
all meet the condition. -/
theorem forall_iff
    (holds : σ → Prop)
    (property condition : σ → ε → Prop)
    (initially : ∀ state, initial state → holds state)
    (kept : ∀ state event later, holds state → condition state event →
      step state event later → holds later)
    (agree : ∀ state event, holds state →
      (property state event ↔ condition state event))
    {taken : List (σ × ε)}
    {state : σ}
    (run : Run initial step taken state) :
    (∀ entry ∈ taken, property entry.1 entry.2) ↔
      ∀ entry ∈ taken, condition entry.1 entry.2 := by
  induction run with
  | start begins => simp
  | @next taken state later event run steps inductionHypothesis =>
      simp only [List.forall_mem_append, List.forall_mem_singleton]
      rw [inductionHypothesis]
      apply and_congr_right
      intro met
      exact agree state event
        (run.invariant_of holds condition initially kept met)

/-- Where every step that meets a condition is a step of another system, a run
whose steps all meet it is a run of that system. -/
theorem refines
    {τ φ : Type}
    {begin : τ → Prop}
    {move : τ → φ → τ → Prop}
    (view : σ → τ)
    (label : σ → ε → φ)
    (holds : σ → Prop)
    (condition : σ → ε → Prop)
    (initially : ∀ state, initial state → holds state ∧ begin (view state))
    (kept : ∀ state event later, holds state → condition state event →
      step state event later →
        holds later ∧ move (view state) (label state event) (view later))
    {taken : List (σ × ε)}
    {state : σ}
    (run : Run initial step taken state)
    (met : ∀ entry ∈ taken, condition entry.1 entry.2) :
    holds state ∧
      Run begin move
        (taken.map fun entry => (view entry.1, label entry.1 entry.2))
        (view state) := by
  induction run with
  | start begins =>
      obtain ⟨first, starts⟩ := initially _ begins
      exact ⟨first, .start starts⟩
  | @next taken state later event run steps inductionHypothesis =>
      rw [List.forall_mem_append, List.forall_mem_singleton] at met
      obtain ⟨before, moves⟩ := inductionHypothesis met.1
      obtain ⟨after, moved⟩ := kept state event later before met.2 steps
      rw [List.map_append]
      exact ⟨after, moves.next moved⟩

end Run

end NanoClr
