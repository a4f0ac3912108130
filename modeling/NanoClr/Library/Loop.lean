import Mathlib.Algebra.Ring.Int.Defs
import Mathlib.Algebra.Ring.Nat
import Mathlib.Tactic.Common

/-!
# Bounded loops

A loop is a body that either asks for another round or delivers a result.  It
is run with a bound on the number of rounds; the rules of this module say when
the bound suffices and what the delivered result satisfies.
-/

namespace NanoClr

/-- What one round of a loop decides. -/
inductive LoopStep (σ ρ : Type) where
  | next (state : σ)
  | done (result : ρ)

/-- Run a loop body for at most the given number of rounds. -/
def loop {σ ρ : Type} (body : σ → LoopStep σ ρ) : Nat → σ → Option ρ
  | 0, _ => none
  | rounds + 1, state =>
      match body state with
      | .next state => loop body rounds state
      | .done result => some result

section Rules

attribute [local simp] loop

variable {σ ρ : Type} {body : σ → LoopStep σ ρ}

theorem loop_succ_next {state later : σ} {rounds : Nat}
    (decides : body state = .next later) :
    loop body (rounds + 1) state = loop body rounds later := by
  simp [loop, decides]

theorem loop_succ_done {state : σ} {result : ρ} {rounds : Nat}
    (decides : body state = .done result) :
    loop body (rounds + 1) state = some result := by
  simp [loop, decides]

/-- Total correctness: an invariant that every round keeps while a variant
decreases, and that gives the postcondition at the last round. -/
theorem loop_total
    (body : σ → LoopStep σ ρ)
    (invariant : σ → Prop)
    (post : ρ → Prop)
    (variant : σ → Nat)
    (nextRound : ∀ state later, invariant state → body state = .next later →
      invariant later ∧ variant later < variant state)
    (lastRound : ∀ state result, invariant state →
      body state = .done result → post result)
    {state : σ}
    {rounds : Nat}
    (holds : invariant state)
    (enough : variant state < rounds) :
    ∃ result, loop body rounds state = some result ∧ post result := by
  induction rounds generalizing state with
  | zero => omega
  | succ rounds inductionHypothesis =>
      cases decides : body state with
      | next later =>
          obtain ⟨kept, decreases⟩ := nextRound state later holds decides
          rw [loop_succ_next decides]
          exact inductionHypothesis kept (by omega)
      | done result =>
          exact ⟨result, loop_succ_done decides,
            lastRound state result holds decides⟩

/-- A loop that delivers a result took a last round, or a round before the
others. -/
theorem loop_some {state : σ} {rounds : Nat} {result : ρ}
    (delivers : loop body rounds state = some result) :
    body state = .done result ∨
      ∃ later fewer, rounds = fewer + 1 ∧ body state = .next later ∧
        loop body fewer later = some result := by
  cases rounds with
  | zero => cases delivers
  | succ fewer =>
      cases decides : body state with
      | next later =>
          rw [loop_succ_next decides] at delivers
          exact .inr ⟨later, fewer, rfl, rfl, delivers⟩
      | done last =>
          rw [loop_succ_done decides, Option.some.injEq] at delivers
          exact .inl (congrArg LoopStep.done delivers)

/-- More rounds, of a body that decides at least as much, deliver the same
result. -/
theorem loop_refine
    (body body' : σ → LoopStep σ ρ)
    (wanted : ρ → Prop)
    (nextRound : ∀ state later, body state = .next later →
      body' state = .next later)
    (lastRound : ∀ state result, wanted result →
      body state = .done result → body' state = .done result)
    {state : σ}
    {rounds more : Nat}
    {result : ρ}
    (enough : rounds ≤ more)
    (isWanted : wanted result)
    (delivers : loop body rounds state = some result) :
    loop body' more state = some result := by
  induction rounds generalizing state more with
  | zero => cases delivers
  | succ rounds inductionHypothesis =>
      obtain ⟨others, rfl⟩ := Nat.exists_eq_add_of_le' enough
      rcases loop_some delivers with last | ⟨later, fewer, same, goes, delivers⟩
      · exact loop_succ_done (lastRound state result isWanted last)
      · cases same
        have enough : rounds ≤ others + rounds := Nat.le_add_left _ _
        rw [← Nat.add_assoc, loop_succ_next (nextRound state later goes)]
        exact inductionHypothesis enough delivers

/-- A loop that goes on for some rounds and then delivers a result. -/
theorem loop_reaches
    (invariant : Nat → σ → Prop)
    {steps rounds : Nat}
    {result : ρ}
    (below : steps < rounds)
    (goesOn : ∀ round < steps, ∀ state, invariant round state →
      ∃ later, body state = .next later ∧ invariant (round + 1) later)
    (ends : ∀ state, invariant steps state → body state = .done result)
    {state : σ}
    (holds : invariant 0 state) :
    loop body rounds state = some result := by
  induction steps generalizing rounds invariant state with
  | zero =>
      obtain ⟨rounds, rfl⟩ := Nat.exists_eq_add_of_lt below
      exact loop_succ_done (ends state holds)
  | succ steps inductionHypothesis =>
      obtain ⟨rounds, rfl⟩ := Nat.exists_eq_add_of_lt below
      obtain ⟨later, goes, kept⟩ := goesOn 0 (Nat.succ_pos steps) state holds
      rw [loop_succ_next goes]
      exact inductionHypothesis (fun round => invariant (round + 1)) (by omega)
        (fun round fewer => goesOn (round + 1) (Nat.succ_lt_succ fewer)) ends
        kept

/-- What every round that delivers a result establishes, whatever the bound on
the rounds is. -/
theorem loop_delivers
    (invariant : Nat → σ → Prop)
    (post : ρ → Prop)
    {rounds : Nat}
    (nextRound : ∀ round state later, round + 1 < rounds →
      invariant round state → body state = .next later →
      invariant (round + 1) later)
    (lastRound : ∀ round state result, round < rounds →
      invariant round state → body state = .done result → post result)
    {state : σ}
    {result : ρ}
    (holds : invariant 0 state)
    (delivers : loop body rounds state = some result) :
    post result := by
  induction rounds generalizing invariant state with
  | zero => cases delivers
  | succ rounds inductionHypothesis =>
      cases decides : body state with
      | next later =>
          rw [loop_succ_next decides] at delivers
          cases rounds with
          | zero => cases delivers
          | succ rounds =>
              have kept := nextRound 0 state later (by omega) holds decides
              exact inductionHypothesis (fun round => invariant (round + 1))
                (fun round state later fewer =>
                  nextRound (round + 1) state later (Nat.succ_lt_succ fewer))
                (fun round state result fewer =>
                  lastRound (round + 1) state result
                    (Nat.succ_lt_succ fewer)) kept delivers
      | done last =>
          rw [loop_succ_done decides, Option.some.injEq] at delivers
          exact delivers ▸
            lastRound 0 state last (Nat.succ_pos rounds) holds decides

end Rules

end NanoClr
