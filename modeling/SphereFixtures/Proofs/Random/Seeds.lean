import Mathlib.Data.UInt
import SphereFixtures.Proofs.Random.Attempt
import SphereFixtures.Proofs.Random.Window

/-!
# Different seeds, different words

A seed is spread over the pool, and the pool over the first window, without
loss, although one word of the window is overwritten.  As outputs give the
window away, different seeds are told apart by their first 625 outputs.
-/

namespace SphereFixtures

namespace SeedPool

/-!
## Stirring
-/

theorem stir_run (pool : Vector UInt32 4) (source target : Fin 4)
    (salt : UInt32) :
    (stir pool (source, target)).run salt =
      (pool.set target
          (mix (pool.get target)
            ((hash entropyFactor (pool.get source)).run salt).1)
          target.isLt,
        salt * entropyFactor) := rfl

theorem stir_injective {source target : Fin 4} (hne : source ≠ target)
    (salt : UInt32) :
    Function.Injective fun pool => ((stir pool (source, target)).run salt).1 := by
  intro p q h
  simp only [stir_run] at h
  have hother : forall i : Fin 4, target ≠ i -> p.get i = q.get i := by
    intro i hi
    have hi' : target.val ≠ i.val := fun heq => hi (Fin.ext heq)
    have hword := congrArg (fun pool : Vector UInt32 4 => pool[i]) h
    simp only [Fin.getElem_fin, Vector.getElem_set_ne _ _ hi'] at hword
    exact hword
  have htarget : p.get target = q.get target := by
    have hword := congrArg (fun pool : Vector UInt32 4 => pool[target]) h
    simp only [Fin.getElem_fin, Vector.getElem_set_self] at hword
    rw [hother source (Ne.symm hne)] at hword
    exact mix_left_injective _ hword
  apply Vector.ext
  intro i hi
  by_cases heq : target = ⟨i, hi⟩
  · subst heq
    exact htarget
  · exact hother ⟨i, hi⟩ heq

theorem foldlM_stir_cons (pool : Vector UInt32 4) (source target : Fin 4)
    (steps : List (Fin 4 × Fin 4)) (salt : UInt32) :
    (((source, target) :: steps).foldlM stir pool).run salt =
      (steps.foldlM stir ((stir pool (source, target)).run salt).1).run
        (salt * entropyFactor) := by
  rw [List.foldlM_cons, Draw.run_bind_eq, stir_run]

/-- Stirring a pool can be undone, as no word is mixed into itself. -/
theorem foldlM_stir_injective {steps : List (Fin 4 × Fin 4)}
    (hsteps : forall step, step ∈ steps -> step.1 ≠ step.2) (salt : UInt32) :
    Function.Injective fun pool => ((steps.foldlM stir pool).run salt).1 := by
  induction steps generalizing salt with
  | nil =>
      intro p q h
      exact h
  | cons step steps ih =>
      intro p q h
      rcases step with ⟨source, target⟩
      have hne : source ≠ target := hsteps (source, target) List.mem_cons_self
      have hrest : forall step, step ∈ steps -> step.1 ≠ step.2 :=
        fun step hstep => hsteps step (List.mem_cons_of_mem _ hstep)
      apply stir_injective hne salt
      apply ih hrest (salt * entropyFactor)
      dsimp only
      rw [← foldlM_stir_cons, ← foldlM_stir_cons]
      exact h

/-!
## The pool of a seed
-/

theorem start_run_fst (seed salt : UInt32) :
    ((start seed).run salt).1[0] = ((hash entropyFactor seed).run salt).1 := rfl

theorem start_run_snd (seed salt : UInt32) :
    ((start seed).run salt).2 =
      salt * entropyFactor * entropyFactor * entropyFactor * entropyFactor := rfl

theorem isUnit_entropy : IsUnit (entropySalt * entropyFactor) :=
  IsUnit.mul (IsUnit.of_mul_eq_one 0x00f38ded (by decide))
    (IsUnit.of_mul_eq_one 0xb02507dd (by decide))

theorem ofWord_eq (seed : UInt32) :
    ofWord seed =
      ((steps.foldlM stir ((start seed).run entropySalt).1).run
        ((start seed).run entropySalt).2).1 := rfl

theorem ofWord_injective : Function.Injective ofWord := by
  intro v w h
  have hsteps : forall step, step ∈ steps -> step.1 ≠ step.2 := by decide
  rw [ofWord_eq, ofWord_eq, start_run_snd, start_run_snd] at h
  have hstart := foldlM_stir_injective hsteps _ h
  apply hash_injective isUnit_entropy
  dsimp only
  rw [← start_run_fst, ← start_run_fst, hstart]

theorem isUnit_outputFactor : IsUnit outputFactor :=
  IsUnit.of_mul_eq_one 0xabb0d7e5 (by decide)

theorem isUnit_outputSalt : IsUnit outputSalt :=
  IsUnit.of_mul_eq_one 0x681a2675 (by decide)

/-!
## The words filled from it
-/

section

variable {ι : Type} (f g : ι -> UInt32)

theorem mapM_hash_cons (item : ι) (items : List ι) (factor salt : UInt32) :
    (((item :: items).mapM fun i => hash factor (f i)).run salt).1 =
      ((hash factor (f item)).run salt).1 ::
        ((items.mapM fun i => hash factor (f i)).run (salt * factor)).1 := by
  rw [List.mapM_cons]
  rfl

theorem length_mapM_hash (items : List ι) (factor salt : UInt32) :
    ((items.mapM fun i => hash factor (f i)).run salt).1.length =
      items.length := by
  induction items generalizing salt with
  | nil => rfl
  | cons item items ih =>
      rw [mapM_hash_cons, List.length_cons, List.length_cons, ih]

/-- Hashes of two functions that are equal at a place come from equal values,
whatever the multiplier has become. -/
theorem eq_of_mapM_hash_eq {items : List ι} {factor salt : UInt32}
    (hfactor : IsUnit factor) (hsalt : IsUnit salt) {n : Nat} {i : ι}
    (hi : items[n]? = some i)
    (h : ((items.mapM fun i => hash factor (f i)).run salt).1[n]? =
      ((items.mapM fun i => hash factor (g i)).run salt).1[n]?) :
    f i = g i := by
  induction items generalizing salt n with
  | nil => cases hi
  | cons item items ih =>
      rw [mapM_hash_cons, mapM_hash_cons] at h
      cases n with
      | zero =>
          simp only [List.getElem?_cons_zero, Option.some_inj] at hi h
          rw [← hi]
          exact hash_injective (hsalt.mul hfactor) h
      | succ n =>
          simp only [List.getElem?_cons_succ] at hi h
          exact ih (hsalt.mul hfactor) hi h

end

theorem length_fill (pool : Vector UInt32 4) (count : Nat) :
    (fill pool count).length = count := by
  rw [fill, length_mapM_hash, List.length_range]

theorem eq_of_fill_eq {p q : Vector UInt32 4} {count n : Nat} (hn : n < count)
    (h : (fill p count)[n]? = (fill q count)[n]?) :
    p[Fin.ofNat 4 n] = q[Fin.ofNat 4 n] :=
  eq_of_mapM_hash_eq (fun i => p[Fin.ofNat 4 i]) (fun i => q[Fin.ofNat 4 i])
    isUnit_outputFactor isUnit_outputSalt (List.getElem?_range hn) h

/-- The four words of a pool are in a window twice over, so the overwritten one
is not needed. -/
theorem eq_of_fill_eq_behind_first {p q : Vector UInt32 4}
    (h : forall n, 0 < n -> n < 624 -> (fill p 624)[n]? = (fill q 624)[n]?) :
    p = q := by
  apply Vector.ext
  intro i hi
  have hword := eq_of_fill_eq (n := i + 4) (by omega)
    (h (i + 4) (by omega) (by omega))
  have hplace : Fin.ofNat 4 (i + 4) = ⟨i, hi⟩ := by
    apply Fin.ext
    simp
    omega
  simp only [hplace] at hword
  exact hword

end SeedPool

namespace Seed

theorem word_injective : Function.Injective word := by
  rintro ⟨v, hv, hv'⟩ ⟨w, hw, hw'⟩ h
  have hnat := congrArg UInt32.toNat h
  simp only [word, UInt32.toNat_ofNat'] at hnat
  have hvalue : v = w := by omega
  subst hvalue
  rfl

end Seed

namespace Twister

theorem window_ofSeed (seed : Seed) {n : Nat} (hpos : 0 < n) (hn : n < 624) :
    some ((ofSeed seed).window n) =
      (SeedPool.fill (SeedPool.ofWord seed.word) 624)[n]? := by
  have hplace : ((0 : Fin 624) + Fin.ofNat 624 n).val = n := by
    simp [Nat.mod_eq_of_lt hn]
  have hwindow : (ofSeed seed).window n =
      ((SeedPool.fill (SeedPool.ofWord seed.word) 624).set 0 0x80000000).getD
        ((0 : Fin 624) + Fin.ofNat 624 n).val 0 := by
    rw [window, Fin.getElem_fin]
    exact Vector.getElem_ofFn _
  have hlength : n < (SeedPool.fill (SeedPool.ofWord seed.word) 624).length := by
    rw [SeedPool.length_fill]
    exact hn
  rw [hwindow, hplace, List.getD_eq_getElem?_getD,
    List.getElem?_set_ne (Nat.ne_of_lt hpos), List.getElem?_eq_getElem hlength]
  rfl

theorem eq_of_window_ofSeed_eq {a b : Seed}
    (h : forall n, 0 < n -> n < 624 ->
      (ofSeed a).window n = (ofSeed b).window n) : a = b := by
  apply Seed.word_injective
  apply SeedPool.ofWord_injective
  apply SeedPool.eq_of_fill_eq_behind_first
  intro n hpos hn
  rw [← window_ofSeed a hpos hn, ← window_ofSeed b hpos hn, h n hpos hn]

end Twister

/-!
## Distinct streams
-/

/-- All signed 32-bit integers are accepted as seeds, and two different ones are
told apart by one of the first 625 words that they yield. -/
theorem distinct_seeds_distinct_streams {s t : Int}
    (hs : -2147483648 ≤ s ∧ s ≤ 2147483647)
    (ht : -2147483648 ≤ t ∧ t ≤ 2147483647) (hne : s ≠ t) :
    exists a b, Seed.ofInt s = .ok a ∧ Seed.ofInt t = .ok b ∧
      exists n, n < 625 ∧
        WordSource.stream (Twister.ofSeed a) n ≠
          WordSource.stream (Twister.ofSeed b) n := by
  refine ⟨⟨s, hs.1, hs.2⟩, ⟨t, ht.1, ht.2⟩, dif_pos hs, dif_pos ht, ?_⟩
  by_contra hnone
  push Not at hnone
  have hwindow := fun n => Twister.window_eq_of_stream_eq hnone (n := n)
  exact hne (congrArg Seed.value (Twister.eq_of_window_ofSeed_eq hwindow))

/-- Two seeds whose words differ in the highest bit only. -/
theorem distinct_seeds_distinct_streams_of_highest_bit :
    (-2147483648 ≤ (-1 : Int) ∧ (-1 : Int) ≤ 2147483647) ∧
      (-2147483648 ≤ (2147483647 : Int) ∧ (2147483647 : Int) ≤ 2147483647) ∧
      (-1 : Int) ≠ 2147483647 ∧
      exists a b, Seed.ofInt (-1) = .ok a ∧ Seed.ofInt 2147483647 = .ok b ∧
        exists n, n < 625 ∧
          WordSource.stream (Twister.ofSeed a) n ≠
            WordSource.stream (Twister.ofSeed b) n := by
  have hnegative : -2147483648 ≤ (-1 : Int) ∧ (-1 : Int) ≤ 2147483647 := by
    decide
  have hgreatest :
      -2147483648 ≤ (2147483647 : Int) ∧ (2147483647 : Int) ≤ 2147483647 := by
    decide
  have hne : (-1 : Int) ≠ 2147483647 := by decide
  exact ⟨hnegative, hgreatest, hne,
    distinct_seeds_distinct_streams hnegative hgreatest hne⟩

end SphereFixtures
