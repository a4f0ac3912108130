import Mathlib.Algebra.Ring.Int.Defs
import Mathlib.Algebra.Ring.Nat
import Mathlib.Tactic.Common

/-!
# Framing

The messages of a stream. A place of the stream where no frame begins is passed
over, and a frame is read as a whole. What the stream begins with is known from
some prefix on, so that a stream can be read piece by piece.
-/

namespace NanoClr

/-- What a stream begins with: what may still become a frame, nothing that can
become one, or a frame of so many elements with its message. -/
inductive Verdict (μ : Type) where
  | unfinished
  | refused
  | frame (length : Nat) (message : μ)
deriving DecidableEq

/-- The frames of a stream; a verdict is not changed by what follows. -/
structure Framing (β μ : Type) where
  verdict : List β → Verdict μ
  verdict_nil : verdict [] = .unfinished
  length_frame : ∀ stream length message,
    verdict stream = .frame length message →
      0 < length ∧ length ≤ stream.length
  stable : ∀ stream more, verdict stream ≠ .unfinished →
    verdict (stream ++ more) = verdict stream

namespace Framing

variable {β μ : Type} (framing : Framing β μ)

/-- The messages of a stream and what is left of it, in so many steps. -/
def readSteps : Nat → List β → List μ × List β
  | 0, stream => ([], stream)
  | steps + 1, stream =>
      match framing.verdict stream with
      | .unfinished => ([], stream)
      | .refused => readSteps steps stream.tail
      | .frame length message =>
          (message :: (readSteps steps (stream.drop length)).1,
            (readSteps steps (stream.drop length)).2)

/-- The messages of a stream and what is left of it. -/
def read (stream : List β) : List μ × List β :=
  framing.readSteps stream.length stream

/-- The messages of a stream. -/
def messages (stream : List β) : List μ := (framing.read stream).1

/-- The end of a stream that may still become a frame. -/
def pending (stream : List β) : List β := (framing.read stream).2

variable {framing} {stream : List β}

theorem ne_nil_of_refused (refused : framing.verdict stream = .refused) :
    stream ≠ [] := by
  rintro rfl
  rw [framing.verdict_nil] at refused
  cases refused

/-- More steps than elements change nothing. -/
theorem readSteps_congr
    {steps others : Nat}
    (enough : stream.length ≤ steps)
    (alsoEnough : stream.length ≤ others) :
    framing.readSteps steps stream = framing.readSteps others stream := by
  induction steps generalizing others stream with
  | zero =>
      obtain rfl := List.length_eq_zero_iff.mp (Nat.le_zero.mp enough)
      cases others with
      | zero => rfl
      | succ others => simp only [readSteps, framing.verdict_nil]
  | succ steps inductionHypothesis =>
      cases others with
      | zero =>
          obtain rfl := List.length_eq_zero_iff.mp (Nat.le_zero.mp alsoEnough)
          simp only [readSteps, framing.verdict_nil]
      | succ others =>
          rw [readSteps, readSteps]
          cases verdict : framing.verdict stream with
          | unfinished => rfl
          | refused =>
              have length_tail : stream.tail.length = stream.length - 1 :=
                List.length_tail
              exact inductionHypothesis (by omega) (by omega)
          | frame length message =>
              have fits := framing.length_frame stream length message verdict
              have length_drop : (stream.drop length).length =
                  stream.length - length := List.length_drop
              simp only [@inductionHypothesis (stream.drop length) others
                (by omega) (by omega)]

/-- What may still become a frame is left. -/
theorem read_unfinished (unfinished : framing.verdict stream = .unfinished) :
    framing.read stream = ([], stream) := by
  rw [read]
  cases stream.length with
  | zero => rfl
  | succ steps => simp only [readSteps, unfinished]

/-- A place where no frame begins is passed over. -/
theorem read_refused (refused : framing.verdict stream = .refused) :
    framing.read stream = framing.read stream.tail := by
  obtain ⟨first, rest, rfl⟩ :=
    List.exists_cons_of_ne_nil (ne_nil_of_refused refused)
  rw [read, List.length_cons, readSteps, refused]
  rfl

/-- A frame is read as a whole. -/
theorem read_frame
    {length : Nat}
    {message : μ}
    (isFrame : framing.verdict stream = .frame length message) :
    framing.read stream =
      (message :: (framing.read (stream.drop length)).1,
        (framing.read (stream.drop length)).2) := by
  have fits := framing.length_frame stream length message isFrame
  obtain ⟨steps, size⟩ : ∃ steps, stream.length = steps + 1 :=
    ⟨stream.length - 1, by omega⟩
  have length_drop : (stream.drop length).length = stream.length - length :=
    List.length_drop
  have rest : framing.readSteps steps (stream.drop length) =
      framing.read (stream.drop length) :=
    readSteps_congr (by omega) (Nat.le_refl _)
  rw [read, size, readSteps, isFrame]
  simp only [rest]

/-- A stream can be read in two pieces: the second one behind what the first
one left. -/
theorem read_append (stream more : List β) :
    framing.read (stream ++ more) =
      (framing.messages stream ++
          framing.messages (framing.pending stream ++ more),
        framing.pending (framing.pending stream ++ more)) := by
  rw [messages, messages, pending, pending]
  induction size : stream.length using Nat.strong_induction_on
    generalizing stream with
  | _ size inductionHypothesis =>
      cases verdict : framing.verdict stream with
      | unfinished =>
          rw [read_unfinished verdict]
          rfl
      | refused =>
          have some_ := ne_nil_of_refused verdict
          have stays := framing.stable stream more (by simp [verdict])
          rw [verdict] at stays
          rw [read_refused verdict, read_refused stays,
            List.tail_append_of_ne_nil some_]
          refine inductionHypothesis stream.tail.length ?_ stream.tail rfl
          rw [List.length_tail]
          have positive := List.length_pos_iff.mpr some_
          omega
      | frame length message =>
          have fits := framing.length_frame stream length message verdict
          have stays := framing.stable stream more (by simp [verdict])
          rw [verdict] at stays
          rw [read_frame verdict, read_frame stays,
            List.drop_append_of_le_length fits.2,
            inductionHypothesis (stream.drop length).length
              (by rw [List.length_drop]; omega) (stream.drop length) rfl]
          rfl

theorem messages_append (stream more : List β) :
    framing.messages (stream ++ more) =
      framing.messages stream ++
        framing.messages (framing.pending stream ++ more) := by
  rw [messages, read_append]

/-- A stream is read as its end, where no frame begins ahead of it. -/
theorem read_behind
    {ahead : List β}
    (refused : ∀ place < ahead.length,
      framing.verdict ((ahead ++ stream).drop place) = .refused) :
    framing.read (ahead ++ stream) = framing.read stream := by
  induction ahead with
  | nil => rfl
  | cons first ahead inductionHypothesis =>
      have passed : framing.verdict (first :: ahead ++ stream) = .refused :=
        refused 0 (Nat.succ_pos _)
      rw [read_refused passed]
      refine inductionHypothesis fun place inside => ?_
      exact refused (place + 1) (Nat.succ_lt_succ inside)

/-- Nothing is left to find in what may still become a frame. -/
theorem messages_unfinished (unfinished : framing.verdict stream = .unfinished) :
    framing.messages stream = [] := by
  rw [messages, read_unfinished unfinished]

/-- A stream that is a frame is its message. -/
theorem messages_frame
    {message : μ}
    (isFrame : framing.verdict stream = .frame stream.length message) :
    framing.messages stream = [message] := by
  rw [messages, read_frame isFrame, List.drop_length,
    read_unfinished framing.verdict_nil]

/-- Where no frame begins, the messages are those behind. -/
theorem messages_refused (refused : framing.verdict stream = .refused) :
    framing.messages stream = framing.messages stream.tail := by
  rw [messages, read_refused refused, messages]

/-- Frames that have so many elements are not in shorter streams. -/
theorem messages_short
    {least : Nat}
    (long : ∀ stream length message,
      framing.verdict stream = .frame length message → least ≤ length)
    (short : stream.length < least) :
    framing.messages stream = [] := by
  induction stream with
  | nil => exact messages_unfinished framing.verdict_nil
  | cons first rest inductionHypothesis =>
      rw [List.length_cons] at short
      cases verdict : framing.verdict (first :: rest) with
      | unfinished => exact messages_unfinished verdict
      | refused =>
          rw [messages_refused verdict]
          exact inductionHypothesis (by omega)
      | frame length message =>
          have fits := framing.length_frame _ length message verdict
          have atLeast := long _ length message verdict
          rw [List.length_cons] at fits
          omega

/-- The messages of a stream ahead of its last elements; no frame begins ahead
of these that is not among them. -/
def Found (framing : Framing β μ) (stream : List β) (found : List μ)
    (last : List β) : Prop :=
  ∃ old, stream = old ++ last ∧ framing.messages old = found ∧
    ∀ place < (framing.pending old).length,
      framing.verdict ((framing.pending old ++ last).drop place) = .refused

namespace Found

variable {found : List μ} {last : List β}

/-- More elements go behind the last ones. -/
theorem append
    (ahead : framing.Found stream found last)
    (more : List β) :
    framing.Found (stream ++ more) found (last ++ more) := by
  obtain ⟨old, rfl, messages, refused⟩ := ahead
  refine ⟨old, List.append_assoc old last more, messages, ?_⟩
  intro place inside
  have fits : place ≤ (framing.pending old ++ last).length := by
    rw [List.length_append]
    omega
  have before := refused place inside
  rw [← List.append_assoc, List.drop_append_of_le_length fits,
    framing.stable _ _ (by simp [before]), before]

/-- The messages of the last elements come behind those that are found. -/
theorem messages (ahead : framing.Found stream found last) :
    framing.messages stream = found ++ framing.messages last := by
  obtain ⟨old, rfl, messages, refused⟩ := ahead
  have behind := read_behind refused
  rw [messages_append, messages]
  exact congrArg (fun read => found ++ read.1) behind

end Found

end Framing

end NanoClr
