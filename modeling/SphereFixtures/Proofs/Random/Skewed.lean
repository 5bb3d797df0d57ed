import Mathlib
import SphereFixtures.Proofs.Random.Counts

/-!
# The bias of skewed draws

A skewed draw takes a number of bits from two words and that many bits from a third
one.  A small number has room in more of the numbers of bits than a large one, so it
has at least as many triples of words.
-/

namespace SphereFixtures

open WordSource

/-!
## One draw after another
-/

/-- Where a first draw decides what is asked of a second one, the pairs are counted
result by result. -/
theorem card_eq_sum_card {A C : Type} [Finite A] [Finite C] {first : A -> Nat}
    {size : Nat} (hfirst : forall a, first a < size) (q : Nat -> C -> Prop) :
    Nat.card { w : A × C // q (first w.1) w.2 } =
      ∑ i ∈ Finset.range size,
        Nat.card { a // first a = i } * Nat.card { c // q i c } := by
  let split : { w : A × C // q (first w.1) w.2 } ≃
      Σ i : Fin size, { a // first a = i.val } × { c // q i.val c } :=
    { toFun := fun w =>
        ⟨⟨first w.val.1, hfirst w.val.1⟩, ⟨w.val.1, rfl⟩, ⟨w.val.2, w.property⟩⟩
      invFun := fun w =>
        ⟨(w.2.1.val, w.2.2.val), by rw [w.2.1.property]; exact w.2.2.property⟩
      left_inv := fun _ => rfl
      right_inv := by
        rintro ⟨⟨i, hi⟩, ⟨a, ha⟩, c⟩
        cases (show first a = i from ha)
        rfl }
  rw [Nat.card_congr split, Nat.card_sigma, ← Fin.sum_univ_eq_sum_range
    (fun i => Nat.card { a // first a = i } * Nat.card { c // q i c })]
  simp only [Nat.card_prod]

namespace Words

/-- How many triples of words have a property. -/
noncomputable def triples (p : UInt32 -> UInt32 -> UInt32 -> Prop) : Nat :=
  Nat.card { w : (UInt32 × UInt32) × UInt32 // p w.1.1 w.1.2 w.2 }

/-- The skewed number that three words make: the first two say how many bits of the
last one are kept. -/
def skewed (width : Nat) (high low last : UInt32) : Nat :=
  lowBits (below (width + 1) high low) last

/-!
## Kept bits
-/

theorem lowBits_eq (width : Nat) (word : UInt32) :
    lowBits width word = word.toNat % 2 ^ width := by
  rw [lowBits, Nat.one_shiftLeft]

theorem lowBits_lt (width : Nat) (word : UInt32) : lowBits width word < 2 ^ width := by
  rw [lowBits_eq]
  exact Nat.mod_lt _ (Nat.two_pow_pos width)

theorem below_lt {n : Nat} (hn : 0 < n) (high low : UInt32) : below n high low < n :=
  Nat.mod_lt _ hn

/-- The words that agree in their last bits are told apart by the bits in front. -/
theorem card_lowBits {width v : Nat} (hwidth : width ≤ 32) (hv : v < 2 ^ width) :
    Nat.card { word : UInt32 // lowBits width word = v } = 2 ^ (32 - width) := by
  have hparts : (2 : Nat) ^ 32 = 2 ^ width * 2 ^ (32 - width) := by
    rw [← Nat.pow_add, Nat.add_sub_cancel' hwidth]
  have hfront := Nat.two_pow_pos (32 - width)
  have hsize : 2 ^ 32 - 1 - v =
      2 ^ width * (2 ^ (32 - width) - 1) + (2 ^ width - 1 - v) := by
    have hless : 2 ^ width ≤ 2 ^ width * 2 ^ (32 - width) :=
      Nat.le_mul_of_pos_right _ hfront
    rw [hparts, Nat.mul_sub, Nat.mul_one]
    omega
  have hbehind : (2 ^ width - 1 - v) / 2 ^ width = 0 :=
    Nat.div_eq_of_lt (by omega)
  have hroom : 2 ^ width ≤ 2 ^ 32 := Nat.pow_le_pow_right Nat.two_pos hwidth
  simp only [lowBits_eq]
  rw [card_toNat fun n => n % 2 ^ width = v, count_mod_eq hv (hv.trans_le hroom),
    hsize, Nat.mul_add_div (Nat.two_pow_pos width), hbehind]
  omega

theorem card_lowBits_of_le {width v : Nat} (hv : 2 ^ width ≤ v) :
    Nat.card { word : UInt32 // lowBits width word = v } = 0 := by
  have hnone : IsEmpty { word : UInt32 // lowBits width word = v } := by
    constructor
    rintro ⟨word, rfl⟩
    exact hv.not_gt (lowBits_lt width word)
  exact Nat.card_of_isEmpty

/-!
## Skewed numbers
-/

theorem skewed_lt (width : Nat) (high low last : UInt32) :
    skewed width high low last < 2 ^ width := by
  have hbits := below_lt (Nat.succ_pos width) high low
  exact (lowBits_lt _ last).trans_le
    (Nat.pow_le_pow_right Nat.two_pos (Nat.le_of_lt_succ hbits))

/-- Every number that all bits can make is drawn with all of them. -/
theorem exists_skewed {width v : Nat} (hwidth : width < 2 ^ 32) (hv : v < 2 ^ width)
    (hword : v < 2 ^ 32) : exists high low last, skewed width high low last = v := by
  rcases (lt_iff_exists_toNat width).mp hwidth with ⟨low, hlow⟩
  rcases (lt_iff_exists_toNat v).mp hword with ⟨last, hlast⟩
  refine ⟨0, low, last, ?_⟩
  have hbits : below (width + 1) 0 low = width := by
    rw [below, wide, hlow, UInt32.toNat_zero, Nat.zero_mul, Nat.zero_add]
    exact Nat.mod_eq_of_lt (Nat.lt_succ_self width)
  rw [skewed, hbits, lowBits_eq, hlast, Nat.mod_eq_of_lt hv]

theorem triples_skewed {width : Nat} (hwidth : width ≤ 32) (v : Nat) :
    triples (fun high low last => skewed width high low last = v) =
      ∑ bits ∈ (Finset.range (width + 1)).filter (fun bits => v < 2 ^ bits),
        pairs (fun high low => below (width + 1) high low = bits) *
          2 ^ (32 - bits) := by
  have hbelow (w : UInt32 × UInt32) : below (width + 1) w.1 w.2 < width + 1 :=
    below_lt (Nat.succ_pos width) w.1 w.2
  have hsum := card_eq_sum_card hbelow fun bits last => lowBits bits last = v
  rw [Finset.sum_filter]
  refine hsum.trans (Finset.sum_congr rfl ?_)
  intro bits hbits
  split
  · next hv =>
      have hle : bits ≤ 32 := (Finset.mem_range_succ_iff.mp hbits).trans hwidth
      rw [card_lowBits hle hv]
      rfl
  · next hv => rw [card_lowBits_of_le (Nat.not_lt.mp hv), Nat.mul_zero]

/-- A smaller number has room in every number of bits in which a larger one has. -/
theorem triples_skewed_antitone {width v v' : Nat} (hwidth : width ≤ 32)
    (h : v ≤ v') :
    triples (fun high low last => skewed width high low last = v') ≤
      triples (fun high low last => skewed width high low last = v) := by
  rw [triples_skewed hwidth, triples_skewed hwidth]
  apply Finset.sum_le_sum_of_subset
  intro bits hbits
  rw [Finset.mem_filter] at hbits ⊢
  exact ⟨hbits.left, h.trans_lt hbits.right⟩

/-- A skewed draw of a width takes three words and gives a number of at most that
many bits.  Every such number is drawn, none is drawn more often than a smaller one,
and how often it is drawn is known from how often each number of bits is. -/
theorem skewed_towards_small {σ : Type} [WordSource σ] {width : Int}
    (hnonneg : 0 ≤ width) (hmax : width ≤ 31) :
    let n := width.toNat
    let count := fun v => triples fun high low last => skewed n high low last = v
    (forall s : σ,
      (Draw.skewed width).run.run s =
        (.ok (skewed n (stream s 0) (stream s 1) (stream s 2)), skip 3 s)) ∧
    (forall high low last, skewed n high low last ≤ 2 ^ n - 1) ∧
    (forall v, v ≤ 2 ^ n - 1 -> exists high low last, skewed n high low last = v) ∧
    (forall v v', v ≤ v' -> v' ≤ 2 ^ n - 1 -> count v' ≤ count v) ∧
    (forall v, v ≤ 2 ^ n - 1 -> count v =
      ∑ bits ∈ (Finset.range (n + 1)).filter (fun bits => v < 2 ^ bits),
        pairs (fun high low => below (n + 1) high low = bits) * 2 ^ (32 - bits)) := by
  intro n count
  have hn : n ≤ 31 := by omega
  have hpos : 0 < 2 ^ n := Nat.two_pow_pos n
  have hroom : 2 ^ n ≤ 2 ^ 31 := Nat.pow_le_pow_right Nat.two_pos hn
  refine ⟨?_, ?_, ?_, ?_, ?_⟩
  · intro s
    exact (Draw.skewed_apply width s).trans (if_pos ⟨hnonneg, hmax⟩)
  · intro high low last
    exact Nat.le_sub_one_of_lt (skewed_lt n high low last)
  · intro v hv
    exact exists_skewed (by omega) (by omega) (by omega)
  · intro v v' h _
    exact triples_skewed_antitone (by omega) h
  · intro v _
    exact triples_skewed (by omega) v

/-- At the greatest width the greatest number needs all bits, so it comes from the
one in 32 pairs of words that ask for them and from two of the last words. -/
theorem skewed_of_greatest_width :
    let count := fun v => triples fun high low last => skewed 31 high low last = v
    (0 : Int) ≤ 31 ∧ (31 : Int) ≤ 31 ∧ count (2 ^ 31 - 1) = 2 ^ 60 ∧
      count (2 ^ 31 - 1) ≤ count 0 ∧
      exists high low last, skewed 31 high low last = 2 ^ 31 - 1 := by
  intro count
  have hnonneg : (0 : Int) ≤ 31 := by decide
  have hmax : (31 : Int) ≤ 31 := by decide
  rcases @skewed_towards_small Twister _ 31 hnonneg hmax with ⟨_, _, hdrawn, hbias, hcounts⟩
  have hbits : (Finset.range (31 + 1)).filter (fun bits => 2 ^ 31 - 1 < 2 ^ bits) =
      {31} := by decide
  refine ⟨hnonneg, hmax, ?_, hbias 0 _ (Nat.zero_le _) le_rfl, hdrawn _ le_rfl⟩
  refine (hcounts (2 ^ 31 - 1) le_rfl).trans ?_
  show ∑ bits ∈ (Finset.range (31 + 1)).filter (fun bits => 2 ^ 31 - 1 < 2 ^ bits),
    pairs (fun high low => below (31 + 1) high low = bits) * 2 ^ (32 - bits) = 2 ^ 60
  rw [hbits, Finset.sum_singleton, pairs_below (by decide) (by decide)]
  norm_num

end Words

end SphereFixtures
