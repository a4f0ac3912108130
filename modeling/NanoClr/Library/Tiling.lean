import Mathlib.Algebra.Ring.Int.Defs
import Mathlib.Algebra.Ring.Nat
import Mathlib.Data.List.Pairwise
import Mathlib.Tactic.Common

/-!
# Tilings of an interval

A tiling lists the start addresses of consecutive blocks; the length of the
block that starts at an address is given by a function of the address.
-/

namespace NanoClr

/-- The blocks at the listed addresses cover the interval from `start` to
`stop` without gaps or overlaps, and none is empty. -/
def Tiling (length : Nat → Nat) (stop : Nat) : Nat → List Nat → Prop
  | start, [] => start = stop
  | start, block :: rest =>
      block = start ∧ 0 < length block ∧
        Tiling length stop (block + length block) rest

namespace Tiling

variable {length length' : Nat → Nat} {start stop : Nat} {blocks : List Nat}

@[simp] theorem nil_iff :
    Tiling length stop start [] ↔ start = stop := Iff.rfl

theorem cons_iff {block : Nat} {rest : List Nat} :
    Tiling length stop start (block :: rest) ↔
      block = start ∧ 0 < length block ∧
        Tiling length stop (block + length block) rest := Iff.rfl

theorem start_le_stop (tiling : Tiling length stop start blocks) :
    start ≤ stop := by
  induction blocks generalizing start with
  | nil => exact Nat.le_of_eq tiling
  | cons block rest inductionHypothesis =>
      obtain ⟨rfl, _, tail⟩ := tiling
      have := inductionHypothesis tail
      omega

/-- A tiling of two adjacent intervals. -/
theorem append_iff {before after : List Nat} :
    Tiling length stop start (before ++ after) ↔
      ∃ middle, Tiling length middle start before ∧
        Tiling length stop middle after := by
  induction before generalizing start with
  | nil => simp
  | cons block rest inductionHypothesis =>
      simp only [List.cons_append, cons_iff, inductionHypothesis]
      constructor
      · rintro ⟨rfl, positive, middle, first, second⟩
        exact ⟨middle, ⟨rfl, positive, first⟩, second⟩
      · rintro ⟨middle, ⟨rfl, positive, first⟩, second⟩
        exact ⟨rfl, positive, middle, first, second⟩

/-- A tiling around one of its blocks. -/
theorem split
    {before after : List Nat}
    {block : Nat}
    (tiling : Tiling length stop start (before ++ block :: after)) :
    Tiling length block start before ∧ 0 < length block ∧
      Tiling length stop (block + length block) after := by
  obtain ⟨middle, first, rfl, positive, second⟩ := append_iff.mp tiling
  exact ⟨first, positive, second⟩

/-- A tiling goes on behind a tiling of the front of its interval. -/
theorem behind
    {middle : Nat}
    {front : List Nat}
    (first : Tiling length middle start front)
    (whole : Tiling length stop start blocks)
    (inside : middle ≤ stop) :
    ∃ rest, Tiling length stop middle rest := by
  induction front generalizing start blocks with
  | nil =>
      have same : start = middle := first
      exact ⟨blocks, same ▸ whole⟩
  | cons block front inductionHypothesis =>
      obtain ⟨rfl, positive, first⟩ := first
      cases blocks with
      | nil =>
          have same : block = stop := whole
          have := first.start_le_stop
          omega
      | cons other rest =>
          obtain ⟨rfl, _, whole⟩ := whole
          exact inductionHypothesis first whole

/-- Every block lies inside the interval. -/
theorem bounds
    (tiling : Tiling length stop start blocks)
    {block : Nat}
    (member : block ∈ blocks) :
    start ≤ block ∧ 0 < length block ∧ block + length block ≤ stop := by
  obtain ⟨before, after, rfl⟩ := List.append_of_mem member
  obtain ⟨first, positive, second⟩ := tiling.split
  exact ⟨first.start_le_stop, positive, second.start_le_stop⟩

/-- The blocks are listed in address order and do not overlap. -/
theorem pairwise (tiling : Tiling length stop start blocks) :
    blocks.Pairwise fun left right => left + length left ≤ right := by
  induction blocks generalizing start with
  | nil => exact List.Pairwise.nil
  | cons block rest inductionHypothesis =>
      obtain ⟨rfl, _, tail⟩ := tiling
      exact List.Pairwise.cons (fun later member => (tail.bounds member).1)
        (inductionHypothesis tail)

theorem sorted (tiling : Tiling length stop start blocks) :
    blocks.Pairwise (· < ·) := by
  refine tiling.pairwise.imp_of_mem ?_
  intro left right leftMember _ ordered
  have := (tiling.bounds leftMember).2.1
  omega

/-- Two different blocks do not overlap. -/
theorem disjoint
    (tiling : Tiling length stop start blocks)
    {left right : Nat}
    (leftMember : left ∈ blocks)
    (rightMember : right ∈ blocks)
    (different : left ≠ right) :
    left + length left ≤ right ∨ right + length right ≤ left := by
  obtain ⟨before, after, rfl⟩ := List.append_of_mem leftMember
  have ordered := List.pairwise_append.mp tiling.pairwise
  rcases List.mem_append.mp rightMember with earlier | later
  · exact Or.inr (ordered.2.2 right earlier left (by simp))
  · rcases List.mem_cons.mp later with same | later
    · exact absurd same.symm different
    · exact Or.inl ((List.pairwise_cons.mp ordered.2.1).1 right later)

/-- A tiling depends only on the lengths of its own blocks. -/
theorem congr
    (tiling : Tiling length stop start blocks)
    (same : ∀ block ∈ blocks, length' block = length block) :
    Tiling length' stop start blocks := by
  induction blocks generalizing start with
  | nil => exact tiling
  | cons block rest inductionHypothesis =>
      obtain ⟨rfl, positive, tail⟩ := tiling
      have sameHead := same block (by simp)
      refine ⟨rfl, by omega, ?_⟩
      rw [sameHead]
      exact inductionHypothesis tail
        (fun later member => same later (by simp [member]))

/-- An interval has at most one tiling. -/
theorem unique
    {other : List Nat}
    (tiling : Tiling length stop start blocks)
    (tiling' : Tiling length stop start other) :
    blocks = other := by
  induction blocks generalizing start other with
  | nil =>
      cases other with
      | nil => rfl
      | cons block rest =>
          have same : start = stop := tiling
          obtain ⟨rfl, positive, tail⟩ := tiling'
          have := tail.start_le_stop
          omega
  | cons block rest inductionHypothesis =>
      obtain ⟨rfl, positive, tail⟩ := tiling
      cases other with
      | nil =>
          have same : block = stop := tiling'
          have := tail.start_le_stop
          omega
      | cons block' rest' =>
          obtain ⟨rfl, _, tail'⟩ := tiling'
          rw [inductionHypothesis tail tail']

/-- The blocks and their start determine where a tiling ends. -/
theorem stop_unique
    {stop' : Nat}
    (tiling : Tiling length stop start blocks)
    (tiling' : Tiling length stop' start blocks) :
    stop = stop' := by
  induction blocks generalizing start with
  | nil => exact tiling.symm.trans tiling'
  | cons block rest inductionHypothesis =>
      exact inductionHypothesis tiling.2.2 tiling'.2.2

/-- A nonempty tiling starts with its first block. -/
theorem start_mem_or
    (tiling : Tiling length stop start blocks) :
    start ∈ blocks ∨ start = stop := by
  cases blocks with
  | nil => exact .inr tiling
  | cons block rest =>
      obtain ⟨rfl, _⟩ := tiling
      exact .inl List.mem_cons_self

/-- Behind a block comes another one or the end. -/
theorem next_mem_or
    (tiling : Tiling length stop start blocks)
    {block : Nat}
    (member : block ∈ blocks) :
    block + length block ∈ blocks ∨ block + length block = stop := by
  obtain ⟨before, after, rfl⟩ := List.append_of_mem member
  rcases tiling.split.2.2.start_mem_or with later | ends
  · exact .inl (List.mem_append_right _ (List.mem_cons_of_mem _ later))
  · exact .inr ends

/-- A tiling has at most as many blocks as the interval has cells. -/
theorem length_le (tiling : Tiling length stop start blocks) :
    start + blocks.length ≤ stop := by
  induction blocks generalizing start with
  | nil => exact Nat.le_of_eq tiling
  | cons block rest inductionHypothesis =>
      obtain ⟨rfl, positive, tail⟩ := tiling
      have := inductionHypothesis tail
      rw [List.length_cons]
      omega

/-- Blocks are aligned like the interval when a unit divides every length. -/
theorem aligned
    (tiling : Tiling length stop start blocks)
    (unit : Nat)
    (divides : ∀ block ∈ blocks, unit ∣ length block)
    {block : Nat}
    (member : block ∈ blocks) :
    block % unit = start % unit := by
  induction blocks generalizing start with
  | nil => simp at member
  | cons first rest inductionHypothesis =>
      obtain ⟨rfl, positive, tail⟩ := tiling
      rcases List.mem_cons.mp member with rfl | later
      · rfl
      · obtain ⟨count, multiple⟩ := divides first (by simp)
        rw [inductionHypothesis tail
          (fun other otherMember => divides other (by simp [otherMember])) later,
          multiple, Nat.add_mul_mod_self_left]

end Tiling

end NanoClr
