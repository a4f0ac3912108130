import Mathlib.Algebra.Ring.Int.Defs
import Mathlib.Algebra.Ring.Nat
import Mathlib.Tactic.Common

/-!
# Runs of calls

An object answers calls one after another.  Its runs are compared with those of
an abstract object, whose answers are a relation, through what the states of
the two have to do with each other.
-/

namespace NanoClr

/-- The state after a sequence of calls and the answers to them. -/
def runCalls {σ κ ρ : Type} (perform : σ → κ → σ × ρ) :
    σ → List κ → σ × List ρ
  | state, [] => (state, [])
  | state, call :: calls =>
      let (later, result) := perform state call
      let (last, results) := runCalls perform later calls
      (last, result :: results)

/-- A sequence of calls and answers that an abstract object allows. -/
inductive AbstractRun {τ κ ρ : Type} (Step : τ → κ → ρ → τ → Prop) :
    τ → List κ → List ρ → τ → Prop
  | nil {value : τ} : AbstractRun Step value [] [] value
  | cons {value later last : τ} {call : κ} {result : ρ} {calls : List κ}
      {results : List ρ}
      (steps : Step value call result later)
      (run : AbstractRun Step later calls results last) :
      AbstractRun Step value (call :: calls) (result :: results) last

/-- A condition on each call of a run and the state it is made in. -/
def EveryCall {σ κ ρ : Type} (perform : σ → κ → σ × ρ)
    (condition : σ → κ → Prop) : σ → List κ → Prop
  | _, [] => True
  | state, call :: calls =>
      condition state call ∧
        EveryCall perform condition (perform state call).1 calls

/-- After each call of a run the object stores what an abstract object has
after the same calls, and has answered as that one may. -/
def RunRefines {σ τ κ ρ : Type} (perform : σ → κ → σ × ρ)
    (Step : τ → κ → ρ → τ → Prop) (Stores : σ → τ → Prop) :
    σ → τ → List κ → Prop
  | _, _, [] => True
  | state, value, call :: calls =>
      ∃ later, Step value call (perform state call).2 later ∧
        Stores (perform state call).1 later ∧
          RunRefines perform Step Stores (perform state call).1 later calls

section Refinement

variable {σ τ κ ρ : Type} {perform : σ → κ → σ × ρ}
  {Step : τ → κ → ρ → τ → Prop} {Stores : σ → τ → Prop}
  {condition : σ → κ → Prop}

theorem everyCall_true
    {state : σ}
    {calls : List κ} :
    EveryCall perform (fun _ _ => True) state calls := by
  induction calls generalizing state with
  | nil => trivial
  | cons call calls inductionHypothesis =>
      exact ⟨trivial, inductionHypothesis⟩

/-- Where each call that meets a condition answers as the abstract object may,
so does every run of such calls. -/
theorem runCalls_refines
    (refines : ∀ state value call, Stores state value →
      condition state call →
        ∃ later, Step value call (perform state call).2 later ∧
          Stores (perform state call).1 later)
    {state : σ}
    {value : τ}
    {calls : List κ}
    (stores : Stores state value)
    (met : EveryCall perform condition state calls) :
    ∃ last,
      AbstractRun Step value calls (runCalls perform state calls).2 last ∧
        Stores (runCalls perform state calls).1 last := by
  induction calls generalizing state value with
  | nil => exact ⟨value, AbstractRun.nil, stores⟩
  | cons call calls inductionHypothesis =>
      obtain ⟨later, steps, storesLater⟩ :=
        refines state value call stores met.1
      obtain ⟨last, run, storesLast⟩ :=
        inductionHypothesis storesLater met.2
      exact ⟨last, AbstractRun.cons steps run, storesLast⟩

/-- Where a call answers as the abstract object may exactly if it meets a
condition, the runs that do are those whose calls all meet it. -/
theorem runRefines_iff
    (refines : ∀ state value call, Stores state value →
      condition state call →
        ∃ later, Step value call (perform state call).2 later ∧
          Stores (perform state call).1 later)
    (needs : ∀ state value call later, Stores state value →
      Step value call (perform state call).2 later →
        Stores (perform state call).1 later → condition state call)
    {state : σ}
    {value : τ}
    {calls : List κ}
    (stores : Stores state value) :
    RunRefines perform Step Stores state value calls ↔
      EveryCall perform condition state calls := by
  induction calls generalizing state value with
  | nil => exact Iff.rfl
  | cons call calls inductionHypothesis =>
      constructor
      · rintro ⟨later, steps, storesLater, rest⟩
        exact ⟨needs state value call later stores steps storesLater,
          (inductionHypothesis storesLater).mp rest⟩
      · rintro ⟨meets, rest⟩
        obtain ⟨later, steps, storesLater⟩ :=
          refines state value call stores meets
        exact ⟨later, steps, storesLater,
          (inductionHypothesis storesLater).mpr rest⟩

/-- What each step of an abstract object changes by its call and answer, a run
changes by all of them. -/
theorem AbstractRun.measure
    {μ : Type}
    {measure : τ → μ}
    {count : μ → κ × ρ → μ}
    (counts : ∀ value call result later, Step value call result later →
      measure later = count (measure value) (call, result))
    {value last : τ}
    {calls : List κ}
    {results : List ρ}
    (run : AbstractRun Step value calls results last) :
    measure last = (calls.zip results).foldl count (measure value) := by
  induction run with
  | nil => rfl
  | cons steps _ inductionHypothesis =>
      rw [List.zip_cons_cons, List.foldl_cons, inductionHypothesis,
        counts _ _ _ _ steps]

end Refinement

end NanoClr
