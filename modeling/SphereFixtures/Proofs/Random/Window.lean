import Mathlib.Data.UInt
import SphereFixtures.Proofs.Random.Lossless
import SphereFixtures.Proofs.Random.Stream

/-!
# The window behind the outputs

The windows of a generator show parts of one sequence of words.  The recurrence
that continues it forwards can also be followed backwards, so as many outputs as
a window has words, and one more, give the window away.  Only of its oldest word
there are 31 bits that no output depends on.
-/

namespace SphereFixtures

namespace Twister

open WordSource

/-!
## One step
-/

theorem position_succ (i : Fin 624) (n : Nat) :
    i + 1 + Fin.ofNat 624 n = i + Fin.ofNat 624 (n + 1) := by
  apply Fin.ext
  simp [Fin.val_add]
  omega

theorem advance_words (t : Twister) (i : Fin 624) :
    t.advance.words[i] =
      if t.oldest = i then
        successor (t.window 0) (t.window 1) (t.window middle)
      else t.words[i] := by
  simp only [advance, Fin.getElem_fin, Vector.getElem_set, Fin.ext_iff]

theorem window_advance (t : Twister) (n : Nat) :
    t.advance.window n = t.advance.words[t.oldest + Fin.ofNat 624 (n + 1)] := by
  show t.advance.words[t.oldest + 1 + Fin.ofNat 624 n] = _
  simp only [position_succ]

theorem window_advance_of_lt (t : Twister) {n : Nat} (hn : n + 1 < 624) :
    t.advance.window n = t.window (n + 1) := by
  have hne : t.oldest ≠ t.oldest + Fin.ofNat 624 (n + 1) := by
    rw [ne_eq, Fin.ext_iff, Fin.val_add, Fin.val_ofNat]
    omega
  rw [window_advance, advance_words, if_neg hne]
  rfl

theorem window_advance_last (t : Twister) :
    t.advance.window 623 =
      successor (t.window 0) (t.window 1) (t.window middle) := by
  have heq : t.oldest = t.oldest + Fin.ofNat 624 (623 + 1) := by
    rw [Fin.ext_iff, Fin.val_add, Fin.val_ofNat]
    omega
  rw [window_advance, advance_words, if_pos heq]

/-!
## One sequence of words
-/

/-- The words of the sequence that the window moves along, counted from its
oldest one. -/
def sequence (t : Twister) (n : Nat) : UInt32 :=
  (skip n t).window 0

theorem skip_succ (n : Nat) (t : Twister) :
    skip (n + 1) t = (skip n t).advance :=
  Function.iterate_succ_apply' _ n t

theorem window_skip (t : Twister) (n : Nat) {k : Nat} (hk : k < 624) :
    (skip n t).window k = t.sequence (n + k) := by
  induction k generalizing n with
  | zero => rfl
  | succ k ih =>
      rw [← window_advance_of_lt _ hk, ← skip_succ, ih (n + 1) (by omega)]
      congr 1
      omega

theorem sequence_add (t : Twister) (n : Nat) :
    t.sequence (n + 624) =
      successor (t.sequence n) (t.sequence (n + 1)) (t.sequence (n + 397)) := by
  calc
    t.sequence (n + 624) = (skip (n + 1) t).window 623 := by
      rw [window_skip t (n + 1) (by decide), Nat.add_assoc]
    _ = successor ((skip n t).window 0) ((skip n t).window 1)
          ((skip n t).window 397) := by
      rw [skip_succ, window_advance_last]
      rfl
    _ = _ := by
      rw [window_skip t n (by decide), window_skip t n (by decide),
        window_skip t n (by decide)]
      rfl

theorem stream_eq (t : Twister) (n : Nat) :
    stream t n = temper (t.sequence (n + 623)) := by
  rw [← window_skip t n (by decide)]
  rfl

/-!
## The sequence backwards
-/

/-- What a word of the sequence was made of is known from it and the word in
the middle. -/
theorem join_eq_of_sequence_eq {t u : Twister} {n : Nat}
    (hnew : t.sequence (n + 624) = u.sequence (n + 624))
    (hmiddle : t.sequence (n + 397) = u.sequence (n + 397)) :
    join (t.sequence n) (t.sequence (n + 1)) =
      join (u.sequence n) (u.sequence (n + 1)) := by
  rw [sequence_add, sequence_add, successor, successor, hmiddle] at hnew
  exact twist_injective ((UInt32.xor_right_inj _).mp hnew)

/-- Sequences that agree on the words of the outputs agree on all words in
front of these, but for the very first one. -/
theorem sequence_eq_of_outputs {t u : Twister}
    (h : forall n, 623 ≤ n -> n < 1248 -> t.sequence n = u.sequence n)
    {n : Nat} (hpos : 0 < n) (hn : n < 1248) :
    t.sequence n = u.sequence n := by
  -- each word is known from four words behind it
  induction hdistance : 1248 - n using Nat.strongRecOn generalizing n with
  | ind distance ih =>
      by_cases houtput : 623 ≤ n
      · exact h n houtput hn
      · rcases Nat.exists_eq_add_of_le' hpos with ⟨m, rfl⟩
        have hbehind : forall k, m + 1 < k -> k < 1248 ->
            t.sequence k = u.sequence k := by
          intro k hlt hk
          exact ih (1248 - k) (by omega) (by omega) hk rfl
        apply eq_of_join_eq
        · exact join_eq_of_sequence_eq (hbehind (m + 624) (by omega) (by omega))
            (hbehind (m + 397) (by omega) (by omega))
        · exact join_eq_of_sequence_eq
            (hbehind (m + 1 + 624) (by omega) (by omega))
            (hbehind (m + 1 + 397) (by omega) (by omega))

/-- Generators with the same first 625 outputs have the same window, but for
its oldest word. -/
theorem window_eq_of_stream_eq {t u : Twister}
    (h : forall n, n < 625 -> stream t n = stream u n) {n : Nat}
    (hpos : 0 < n) (hn : n < 624) : t.window n = u.window n := by
  have houtputs : forall k, 623 ≤ k -> k < 1248 ->
      t.sequence k = u.sequence k := by
    intro k hle hk
    rcases Nat.exists_eq_add_of_le' hle with ⟨i, rfl⟩
    apply temper_injective
    rw [← stream_eq, ← stream_eq]
    exact h i (by omega)
  have hsequence := sequence_eq_of_outputs houtputs hpos (by omega)
  have hwindow : forall s : Twister, s.window n = s.sequence n := by
    intro s
    simpa using window_skip s 0 hn
  rw [hwindow, hwindow, hsequence]

end Twister

end SphereFixtures
