import Mathlib
import SphereFixtures.Proofs.Session.Answers

/-!
# Counting pairs of words

How often a draw has a result is the number of pairs of words that lead to it.  A
pair of words is a number of 64 bits, and of the numbers of 64 bits that leave the
same remainder there are as many as blocks of the length of the divisor begin early
enough.
-/

namespace SphereFixtures

open WordSource

/-!
## Words as numbers
-/

/-- What is told by a number that runs through an initial segment is counted among
the numbers. -/
theorem card_eq_count {W : Type} {number : W -> Nat} {size : Nat}
    (hinjective : Function.Injective number)
    (hrange : forall n, n < size <-> exists w, number w = n) (p : Nat -> Prop)
    [DecidablePred p] : Nat.card { w // p (number w) } = Nat.count p size := by
  have hmem (w : { w // p (number w) }) :
      number w ∈ (Finset.range size).filter p := by
    rw [Finset.mem_filter, Finset.mem_range, hrange]
    exact ⟨⟨w, rfl⟩, w.property⟩
  have hbijective : Function.Bijective
      fun w : { w // p (number w) } =>
        (⟨number w, hmem w⟩ : { n // n ∈ (Finset.range size).filter p }) := by
    constructor
    · intro v w h
      exact Subtype.ext (hinjective (Subtype.ext_iff.mp h))
    · rintro ⟨n, hn⟩
      rw [Finset.mem_filter, Finset.mem_range, hrange] at hn
      rcases hn with ⟨⟨w, rfl⟩, hp⟩
      exact ⟨⟨w, hp⟩, rfl⟩
  rw [Nat.card_eq_of_bijective _ hbijective, Nat.count_eq_card_filter_range]
  exact Nat.card_eq_finsetCard _

namespace Words

/-- How many pairs of words have a property. -/
noncomputable def pairs (p : UInt32 -> UInt32 -> Prop) : Nat :=
  Nat.card { w : UInt32 × UInt32 // p w.1 w.2 }

theorem lt_iff_exists_toNat (n : Nat) :
    n < 2 ^ 32 <-> exists w : UInt32, w.toNat = n := by
  constructor
  · intro hn
    exact ⟨UInt32.ofNat n, UInt32.toNat_ofNat_of_lt hn⟩
  · rintro ⟨w, rfl⟩
    exact w.toNat_lt

theorem lt_iff_exists_wide (n : Nat) :
    n < 2 ^ 64 <-> exists w : UInt32 × UInt32, wide w.1 w.2 = n := by
  constructor
  · intro hn
    rcases (lt_iff_exists_toNat (n / 4294967296)).mp (by omega) with ⟨high, hhigh⟩
    rcases (lt_iff_exists_toNat (n % 4294967296)).mp (by omega) with ⟨low, hlow⟩
    refine ⟨(high, low), ?_⟩
    rw [wide, hhigh, hlow]
    omega
  · rintro ⟨⟨high, low⟩, rfl⟩
    have hhigh := high.toNat_lt
    have hlow := low.toNat_lt
    simp only [wide]
    omega

theorem wide_injective :
    Function.Injective fun w : UInt32 × UInt32 => wide w.1 w.2 := by
  rintro ⟨high, low⟩ ⟨high', low'⟩ h
  have hlow := low.toNat_lt
  have hlow' := low'.toNat_lt
  simp only [wide] at h
  rw [Prod.mk.injEq, ← UInt32.toNat_inj, ← UInt32.toNat_inj]
  omega

theorem card_toNat (p : Nat -> Prop) [DecidablePred p] :
    Nat.card { w : UInt32 // p w.toNat } = Nat.count p (2 ^ 32) :=
  card_eq_count (fun _ _ => UInt32.toNat_inj.mp) lt_iff_exists_toNat p

theorem pairs_wide (p : Nat -> Prop) [DecidablePred p] :
    pairs (fun high low => p (wide high low)) = Nat.count p (2 ^ 64) :=
  card_eq_count wide_injective lt_iff_exists_wide p

end Words

/-!
## Remainders
-/

/-- The numbers with a remainder are one in each whole block and perhaps one in the
block that is cut off. -/
theorem count_mod_eq {n r size : Nat} (hr : r < n) (hsize : r < size) :
    Nat.count (fun x => x % n = r) size = (size - 1 - r) / n + 1 := by
  have hpos : 0 < n := Nat.zero_lt_of_lt hr
  have hcount := Nat.count_modEq_card size hpos r
  simp only [Nat.ModEq, Nat.mod_eq_of_lt hr] at hcount
  rw [hcount]
  have hparts := Nat.div_add_mod size n
  have hrest := Nat.mod_lt size hpos
  split
  · next hlt =>
      have hlast : size - 1 - r = n * (size / n) + (size % n - 1 - r) := by
        omega
      have hbehind : (size % n - 1 - r) / n = 0 := Nat.div_eq_of_lt (by omega)
      rw [hlast, Nat.mul_add_div hpos, hbehind, Nat.add_zero]
  · next hge =>
      have hsome : size / n ≠ 0 := by
        intro hzero
        rw [hzero] at hparts
        omega
      rcases Nat.exists_eq_succ_of_ne_zero hsome with ⟨blocks, hblocks⟩
      rw [hblocks, Nat.mul_succ] at hparts
      have hlast : size - 1 - r = n * blocks + (n + size % n - 1 - r) := by
        omega
      have hbehind : (n + size % n - 1 - r) / n = 0 :=
        Nat.div_eq_of_lt (by omega)
      rw [hlast, Nat.mul_add_div hpos, hbehind, hblocks]

theorem abs_mul_count_sub_lt {n r size count : Nat} (hr : r < n) (hsize : r < size)
    (hcount : count = (size - 1 - r) / n + 1) :
    |(n * count : Int) - size| < n := by
  have hparts := Nat.div_add_mod (size - 1 - r) n
  have hrest := Nat.mod_lt (size - 1 - r) (Nat.zero_lt_of_lt hr)
  have hproduct : n * count = n * ((size - 1 - r) / n) + n := by
    rw [hcount, Nat.mul_succ]
  rw [abs_lt]
  have hcast : ((n * count : Nat) : Int) = n * count := Nat.cast_mul n count
  omega

namespace Words

theorem pairs_below {n r : Nat} (hr : r < n) (hsize : r < 2 ^ 64) :
    pairs (fun high low => below n high low = r) = (2 ^ 64 - 1 - r) / n + 1 :=
  (pairs_wide fun x => x % n = r).trans (count_mod_eq hr hsize)

theorem hit_iff (n : Nat) (high low : UInt32) :
    hit n high low = true <-> below n high low = 0 :=
  beq_iff_eq

theorem pairs_hit {n : Nat} (hn : 0 < n) :
    pairs (fun high low => hit n high low = true) = (2 ^ 64 - 1) / n + 1 := by
  simp only [hit_iff]
  exact pairs_below hn (Nat.two_pow_pos 64)

/-- A number below `n` is drawn from two words, and of the pairs of words as many
lead to a remainder as leave it among the numbers of 64 bits.  This is closer than
`n` to an equal share and off by less than one part in `2 ^ 32`.  A draw that is
true once in `n` times is true for the remainder zero. -/
theorem remainders_nearly_even {σ : Type} [WordSource σ] {n : Int} (hpos : 1 ≤ n)
    (hmax : n ≤ 2 ^ 31 - 1) :
    let m := n.toNat
    (forall s : σ,
      (Draw.below n).run.run s =
          (.ok (below m (stream s 0) (stream s 1)), skip 2 s) ∧
        (Draw.oneIn n).run.run s =
          (.ok (hit m (stream s 0) (stream s 1)), skip 2 s)) ∧
    (forall r, r < m ->
      let count := pairs fun high low => below m high low = r
      count = (2 ^ 64 - 1 - r) / m + 1 ∧
        |(m * count : Int) - 2 ^ 64| < (m : Int) ∧
        |(m * count : ℚ) / 2 ^ 64 - 1| < 1 / 2 ^ 32) ∧
    pairs (fun high low => hit m high low = true) = (2 ^ 64 - 1) / m + 1 := by
  intro m
  have haccepted : 0 < n ∧ n ≤ DrawError.maxBound := by
    rw [DrawError.maxBound]
    omega
  have hm : m ≤ 2 ^ 31 := by omega
  refine ⟨?_, ?_, pairs_hit (by omega)⟩
  · intro s
    exact ⟨(Draw.below_apply n s).trans (if_pos haccepted),
      (Draw.oneIn_apply n s).trans (if_pos haccepted)⟩
  · intro r hr count
    have hcount : count = (2 ^ 64 - 1 - r) / m + 1 := pairs_below hr (by omega)
    have hclose : |(m * count : Int) - 2 ^ 64| < (m : Int) := by
      exact_mod_cast abs_mul_count_sub_lt hr (by omega) hcount
    refine ⟨hcount, hclose, ?_⟩
    have hcloseRat : |(m * count : ℚ) - 2 ^ 64| < (m : ℚ) := by
      exact_mod_cast hclose
    have hdeviation : (m * count : ℚ) / 2 ^ 64 - 1 =
        ((m * count : ℚ) - 2 ^ 64) / 2 ^ 64 := by
      rw [sub_div, div_self (by positivity)]
    have hsmall : |(m * count : ℚ) - 2 ^ 64| < 2 ^ 31 :=
      hcloseRat.trans_le (by exact_mod_cast hm)
    have hroom : (2 : ℚ) ^ 31 ≤ 1 / 2 ^ 32 * 2 ^ 64 := by norm_num
    rw [hdeviation, abs_div, abs_of_pos (show (0 : ℚ) < 2 ^ 64 by positivity),
      div_lt_iff₀ (by positivity)]
    exact hsmall.trans_le hroom

/-- Of a draw below three the result zero has one pair of words more than the
others. -/
theorem remainders_of_three :
    (1 : Int) ≤ 3 ∧ (3 : Int) ≤ 2 ^ 31 - 1 ∧
      pairs (fun high low => below 3 high low = 0) = 6148914691236517206 ∧
      pairs (fun high low => below 3 high low = 1) = 6148914691236517205 ∧
      pairs (fun high low => hit 3 high low = true) = 6148914691236517206 := by
  have hpos : (1 : Int) ≤ 3 := by decide
  have hmax : (3 : Int) ≤ 2 ^ 31 - 1 := by decide
  rcases @remainders_nearly_even Twister _ 3 hpos hmax with ⟨_, hcounts, hhits⟩
  exact ⟨hpos, hmax, (hcounts 0 (by decide)).left, (hcounts 1 (by decide)).left, hhits⟩

end Words

end SphereFixtures
