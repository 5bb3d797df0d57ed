import Mathlib.Logic.Function.Iterate
import SphereFixtures.Random.Words

/-!
# The words of a source

A source stands for the sequence of words that it yields, and taking words moves
it along this sequence.
-/

namespace SphereFixtures

namespace WordSource

variable {σ : Type} [WordSource σ]

/-- The source after a number of words. -/
def skip (count : Nat) (s : σ) : σ :=
  (fun t => (next t).2)^[count] s

/-- The words that a source yields, counted from the next one. -/
def stream (s : σ) (n : Nat) : UInt32 :=
  (next (skip n s)).1

@[simp] theorem skip_zero (s : σ) : skip 0 s = s := rfl

@[simp] theorem skip_skip (m n : Nat) (s : σ) :
    skip m (skip n s) = skip (n + m) s := by
  rw [Nat.add_comm]
  exact (Function.iterate_add_apply _ m n s).symm

@[simp] theorem stream_skip (m n : Nat) (s : σ) :
    stream (skip m s) n = stream s (m + n) := by
  rw [stream, skip_skip]
  rfl

end WordSource

/-- A source that yields the words of a given sequence. -/
structure Tape where
  words : Nat -> UInt32

namespace Tape

open WordSource

instance : WordSource Tape where
  next t := (t.words 0, { words := fun n => t.words (n + 1) })

theorem words_skip (t : Tape) (n m : Nat) : (skip n t).words m = t.words (n + m) := by
  induction n generalizing t with
  | zero => rw [skip_zero, Nat.zero_add]
  | succ n ih =>
      show (skip n (next t).2).words m = _
      rw [ih, Nat.add_right_comm]
      rfl

theorem stream_eq (t : Tape) : stream t = t.words := by
  funext n
  exact t.words_skip n 0

end Tape

namespace Draw

open WordSource

variable {σ : Type} [WordSource σ]

theorem pair_apply {β : Type} (f : UInt32 -> UInt32 -> β) (s : σ) :
    (pair f : Draw σ β) s = (f (stream s 0) (stream s 1), skip 2 s) := rfl

end Draw

end SphereFixtures
