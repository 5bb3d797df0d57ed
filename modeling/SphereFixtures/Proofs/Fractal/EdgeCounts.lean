import SphereFixtures.Proofs.Fractal.Configuration
import SphereFixtures.Proofs.Fractal.RoundedLogarithms

/-!
# Levels close to edge counts

For every number of edges there is one level whose number of edges is within a
factor of two of it.  The level that is chosen is this one, unless the number is
so close below twice the edges of the level that its logarithm rounds up.
-/

namespace SphereFixtures

open Binary64

namespace EdgeCount

/-!
## The level within a factor of two
-/

/-- Whether the edges of a level are within a factor of two of a number of them.
The least level is for all smaller numbers as well. -/
def Suits (count : Int) (level : Nat) : Prop :=
  count < 3 * 4 ^ level * 2 ∧ (level = 0 ∨ 3 * 4 ^ level ≤ 2 * count)

instance (count : Int) (level : Nat) : Decidable (Suits count level) :=
  inferInstanceAs (Decidable (_ ∧ _))

/-- The level that a number lies at, from the odd power of two before it up to
the next one. -/
def levelOf (q : Nat) : Nat :=
  (Nat.log2 q + 1) / 2

theorem levelOf_eq_iff {q : Nat} (hq : q ≠ 0) {level : Nat} :
    levelOf q = level <->
      q < 2 ^ (2 * level + 1) ∧ (level = 0 ∨ 2 ^ (2 * level - 1) ≤ q) := by
  unfold levelOf
  rw [← Nat.log2_lt hq, ← Nat.le_log2 hq]
  omega

theorem levelOf_two_pow (level : Nat) :
    levelOf (2 ^ (2 * level + 1)) = level + 1 := by
  rw [levelOf, Nat.log2_two_pow]
  omega

theorem four_pow_eq (level : Nat) : 4 ^ level * 2 = 2 ^ (2 * level + 1) := by
  rw [Nat.pow_succ, Nat.pow_mul]

/-- The third of a number of edges tells whether a level suits. -/
theorem suits_iff_of_three_le {count : Int} (h : 3 ≤ count) (level : Nat) :
    Suits count level <-> levelOf (count / 3).toNat = level := by
  have hq : (count / 3).toNat ≠ 0 := by omega
  rw [levelOf_eq_iff hq]
  unfold Suits
  have hupper : (3 : Int) * 4 ^ level * 2 = 3 * (2 ^ (2 * level + 1) : Nat) := by
    rw [← four_pow_eq]
    push_cast
    ring
  rw [hupper]
  cases level with
  | zero => omega
  | succ level =>
      have hlower : (3 : Int) * 4 ^ (level + 1) =
          2 * (3 * (2 ^ (2 * (level + 1) - 1) : Nat)) := by
        have hexponent : 2 * (level + 1) - 1 = 2 * level + 1 := by omega
        rw [hexponent, ← four_pow_eq]
        push_cast
        ring
      rw [hlower]
      omega

theorem suits_iff_of_lt_three {count : Int} (h : count < 3) (level : Nat) :
    Suits count level <-> level = 0 := by
  unfold Suits
  cases level with
  | zero => omega
  | succ level =>
      have hpos : (0 : Int) < 4 ^ level := by positivity
      rw [Int.pow_succ]
      omega

/-- The one level that suits. -/
def suited (count : Int) : Nat :=
  if count < 3 then 0 else levelOf (count / 3).toNat

theorem suited_eq_levelOf {count : Int} (h : 3 ≤ count) :
    suited count = levelOf (count / 3).toNat :=
  if_neg (Int.not_lt.mpr h)

theorem suits_iff (count : Int) (level : Nat) :
    Suits count level <-> level = suited count := by
  rcases Int.lt_or_le count 3 with h | h
  · rw [suits_iff_of_lt_three h, suited, if_pos h]
  · rw [suits_iff_of_three_le h, suited_eq_levelOf h]
    exact eq_comm

/-!
## The level that is chosen
-/

theorem halfLog_eq (q : Nat) :
    halfLog q =
      if logReaches (nearestWhole q) (2 * levelOf (nearestWhole q) + 1) then
        levelOf (nearestWhole q) + 1
      else levelOf (nearestWhole q) := rfl

theorem levelOf_le_halfLog (q : Nat) : levelOf (nearestWhole q) ≤ halfLog q := by
  rw [halfLog_eq]
  split
  · exact Nat.le_succ _
  · exact Nat.le_refl _

theorem halfLog_le_succ (q : Nat) : halfLog q ≤ levelOf (nearestWhole q) + 1 := by
  rw [halfLog_eq]
  split
  · exact Nat.le_refl _
  · exact Nat.le_succ _

theorem levelOf_mono {q r : Nat} (hq : q ≠ 0) (h : q ≤ r) :
    levelOf q ≤ levelOf r := by
  have hlog : Nat.log2 q ≤ Nat.log2 r :=
    (Nat.le_log2 (by omega)).mpr ((Nat.log2_self_le hq).trans h)
  unfold levelOf
  omega

theorem nearestWhole_ne_zero {q : Nat} (hq : q ≠ 0) : nearestWhole q ≠ 0 := by
  have hone : nearestWhole (2 ^ 0) ≤ nearestWhole q :=
    nearestWhole_mono (Nat.one_le_iff_ne_zero.mpr hq)
  rw [nearestWhole_two_pow] at hone
  exact Nat.one_le_iff_ne_zero.mp hone

theorem halfLog_mono {q r : Nat} (hq : q ≠ 0) (h : q ≤ r) :
    halfLog q ≤ halfLog r := by
  have hrounded := nearestWhole_mono h
  rcases Nat.lt_or_eq_of_le (levelOf_mono (nearestWhole_ne_zero hq) hrounded) with
    hlt | heq
  · exact (halfLog_le_succ q).trans ((Nat.succ_le_of_lt hlt).trans (levelOf_le_halfLog r))
  · rw [halfLog_eq q, heq]
    split
    · next hreach =>
        rw [halfLog_eq r, if_pos (logReaches_mono hrounded hreach)]
    · exact levelOf_le_halfLog r

/-- A number stays at its level when it is rounded, or it is rounded to the odd
power of two at the end of the level. -/
theorem levelOf_nearestWhole_cases {q : Nat} (hq : q ≠ 0) :
    levelOf (nearestWhole q) = levelOf q ∨
      nearestWhole q = 2 ^ (2 * levelOf q + 1) := by
  rcases (levelOf_eq_iff hq).mp rfl with ⟨hupper, hlower⟩
  have hend : nearestWhole q ≤ 2 ^ (2 * levelOf q + 1) := by
    rw [← nearestWhole_two_pow]
    exact nearestWhole_mono hupper.le
  rcases Nat.lt_or_eq_of_le hend with hlt | heq
  · apply Or.inl
    refine (levelOf_eq_iff (nearestWhole_ne_zero hq)).mpr ⟨hlt, ?_⟩
    rcases hlower with hzero | hstart
    · exact Or.inl hzero
    · apply Or.inr
      rw [← nearestWhole_two_pow (2 * levelOf q - 1)]
      exact nearestWhole_mono hstart
  · exact Or.inr heq

/-- The level is missed exactly when the rounded logarithm reaches the end of
it, and then it is exceeded. -/
theorem halfLog_cases {q : Nat} (hq : q ≠ 0) :
    ¬ logReaches (nearestWhole q) (2 * levelOf q + 1) = true ∧
        halfLog q = levelOf q ∨
      logReaches (nearestWhole q) (2 * levelOf q + 1) = true ∧
        levelOf q < halfLog q := by
  rcases levelOf_nearestWhole_cases hq with hsame | hend
  · rw [halfLog_eq, hsame]
    split
    · next h => exact Or.inr ⟨h, Nat.lt_succ_self _⟩
    · next h => exact Or.inl ⟨h, rfl⟩
  · apply Or.inr
    rw [hend]
    refine ⟨logReaches_two_pow _, ?_⟩
    have hle := levelOf_le_halfLog q
    rw [hend, levelOf_two_pow] at hle
    exact hle

/-- The logarithm of an odd power of two does not round up to the next odd
number, unless it is so great that odd numbers are not told apart. -/
theorem not_logReaches_two_pow {k : Nat} (hk : k < 2 ^ 53 - 2) :
    ¬ logReaches (2 ^ k) (k + 2) = true := by
  have hsliver : 4 * sliver (k + 2) < 3 * 2 ^ 53 := by
    have hpart : 4 * sliver (k + 2) ≤ 3 * (k + 2) :=
      four_mul_sliver_le (Nat.succ_ne_zero _)
    omega
  rw [logReaches_iff, Nat.not_le]
  calc 2 ^ k * 2 ^ 53 + sliver (k + 2) * 2 ^ (k + 2)
      = 2 ^ k * (2 ^ 53 + 4 * sliver (k + 2)) := by ring
    _ < 2 ^ k * 2 ^ 55 := Nat.mul_lt_mul_of_pos_left (by omega) (Nat.two_pow_pos k)
    _ = 2 ^ (k + 2) * 2 ^ 53 := by ring

/-- The next level is the only other one. -/
theorem halfLog_le {q : Nat} (hq : q ≠ 0) (hless : levelOf q < 2 ^ 51) :
    halfLog q ≤ levelOf q + 1 := by
  rcases levelOf_nearestWhole_cases hq with hsame | hend
  · rw [← hsame]
    exact halfLog_le_succ q
  · have hnot : ¬ logReaches (2 ^ (2 * levelOf q + 1))
        (2 * (levelOf q + 1) + 1) = true :=
      not_logReaches_two_pow (by omega)
    rw [halfLog_eq, hend, levelOf_two_pow, if_neg hnot]

/-- A number at which the logarithm rounds up to the end of its level is close
to the end of the level. -/
theorem close_of_logReaches {q k : Nat} (hk : k ≠ 0) (hq : q ≤ 2 ^ k)
    (h : logReaches (nearestWhole q) k = true) :
    2 ^ k * 2 ^ 53 ≤ q * 2 ^ 53 + k * 2 ^ k := by
  rw [logReaches_iff] at h
  have hclose := (nearestWhole_close q).left
  have hsliver : (sliver k + 1) * 2 ^ k ≤ k * 2 ^ k :=
    Nat.mul_le_mul_right _ (sliver_lt hk)
  linarith

/-- Below this number no logarithm rounds up to the end of a level. -/
theorem not_logReaches_of_lt {q k : Nat} (hq : q < 2 ^ 49 - 1) (hend : q < 2 ^ k)
    (hk : k ≤ 49) : ¬ logReaches (nearestWhole q) k = true := by
  have hsliver := sliver_le_twenty_two k hk
  have hexact : nearestWhole q = q := nearestWhole_of_lt (by omega)
  rw [hexact, logReaches_iff, Nat.not_le]
  rcases Nat.lt_or_eq_of_le hk with hless | rfl
  · have hpow : 2 ^ k ≤ 2 ^ 48 := Nat.pow_le_pow_right (by decide) (by omega)
    have hpart : sliver k * 2 ^ k ≤ 22 * 2 ^ 48 := Nat.mul_le_mul hsliver hpow
    have hone : (q + 1) * 2 ^ 53 ≤ 2 ^ k * 2 ^ 53 :=
      Nat.mul_le_mul_right _ hend
    linarith
  · have htwo : (q + 2) * 2 ^ 53 ≤ 2 ^ 49 * 2 ^ 53 :=
      Nat.mul_le_mul_right _ (by omega)
    linarith

/-- From the twenty-fourth level on the logarithm rounds up just below the end of
each level. -/
theorem logReaches_of_pred_two_pow {k : Nat} (hk : 49 ≤ k) :
    logReaches (nearestWhole (2 ^ k - 1)) k = true := by
  rw [logReaches_iff]
  have hclose := (nearestWhole_close (2 ^ k - 1)).right
  have hsliver : 22 * 2 ^ k ≤ sliver k * 2 ^ k :=
    Nat.mul_le_mul_right _ (twenty_two_le_sliver (by omega))
  have hpow : 2 ^ 49 ≤ 2 ^ k := Nat.pow_le_pow_right (by decide) hk
  rw [Nat.sub_mul] at hclose
  omega

theorem level_eq_halfLog {count : Int} (h : 3 ≤ count) :
    level count = halfLog (count / 3).toNat :=
  if_neg (Int.not_lt.mpr h)

theorem level_mono {count more : Int} (h : count ≤ more) :
    level count ≤ level more := by
  rcases Int.lt_or_le count 3 with hcount | hcount
  · rw [level, if_pos hcount]
    exact Nat.zero_le _
  · rw [level_eq_halfLog hcount, level_eq_halfLog (Int.le_trans hcount h)]
    exact halfLog_mono (by omega) (by omega)

/-- The number of edges at which the logarithm rounds up for the first time. -/
def firstMiss : Int :=
  3 * (2 ^ 49 - 1)

theorem level_eq_suited_iff (count : Int) :
    level count = suited count <->
      count < 3 ∨
        ¬ logReaches (nearestWhole (count / 3).toNat) (2 * suited count + 1) = true := by
  rcases Int.lt_or_le count 3 with hcount | hcount
  · have hlevel : level count = suited count := by
      rw [level, suited, if_pos hcount, if_pos hcount]
    exact ⟨fun _ => Or.inl hcount, fun _ => hlevel⟩
  · have hq : (count / 3).toNat ≠ 0 := by omega
    rw [level_eq_halfLog hcount, suited_eq_levelOf hcount]
    rcases halfLog_cases hq with ⟨hnot, hsame⟩ | ⟨hreach, hmore⟩
    · exact ⟨fun _ => Or.inr hnot, fun _ => hsame⟩
    · constructor
      · intro hsame
        exact absurd hsame hmore.ne'
      · rintro (hless | hnot)
        · exact absurd hcount (Int.not_le.mpr hless)
        · exact absurd hreach hnot

/-- The level is kept exactly when the logarithm is short of the end of it by more than
half the spacing of doubles. -/
theorem level_eq_suited_iff_logb_lt (count : Int) (hless : suited count < 2 ^ 52) :
    level count = suited count <->
      count < 3 ∨
        Real.logb 2 (nearestWhole (count / 3).toNat) <
          (2 * suited count + 1 : Nat) -
            2 ^ Nat.log2 (2 * suited count + 1) / 2 ^ 53 := by
  rw [level_eq_suited_iff]
  rcases Int.lt_or_le count 3 with hcount | hcount
  · exact iff_of_true (Or.inl hcount) (Or.inl hcount)
  · have hq : nearestWhole (count / 3).toNat ≠ 0 := nearestWhole_ne_zero (by omega)
    rw [logReaches_nearestWhole_iff (Nat.succ_ne_zero _) (by omega) hq, not_le]

/-- A level that is missed is exceeded, by one level, and the number is close to
the end of it. -/
theorem level_of_ne_suited {count : Int} (hmiss : level count ≠ suited count) :
    suited count < level count ∧
      (suited count < 2 ^ 51 -> level count = suited count + 1) ∧
      3 * 4 ^ suited count * 2 * (2 ^ 53 - (2 * suited count + 1)) ≤
        count * 2 ^ 53 := by
  have hcauses := mt (level_eq_suited_iff count).mpr hmiss
  rw [not_or, Int.not_lt, Classical.not_not] at hcauses
  rcases hcauses with ⟨hcount, hreach⟩
  have hq : (count / 3).toNat ≠ 0 := by omega
  rw [level_eq_halfLog hcount] at hmiss ⊢
  rw [suited_eq_levelOf hcount] at hmiss hreach ⊢
  have hmore : levelOf (count / 3).toNat < halfLog (count / 3).toNat := by
    rcases halfLog_cases hq with ⟨_, hsame⟩ | ⟨_, hmore⟩
    · exact absurd hsame hmiss
    · exact hmore
  refine ⟨hmore, ?_, ?_⟩
  · intro hless
    exact Nat.le_antisymm (halfLog_le hq hless) hmore
  · rcases (levelOf_eq_iff hq).mp rfl with ⟨hend, _⟩
    have hclose := close_of_logReaches (Nat.succ_ne_zero _) hend.le hreach
    rw [← four_pow_eq] at hclose
    have hthird : (3 * (count / 3).toNat : Int) ≤ count := by omega
    zify at hclose
    linarith

theorem suits_level_of_lt_firstMiss {count : Int} (h : count < firstMiss) :
    Suits count (level count) := by
  rw [suits_iff, level_eq_suited_iff]
  rcases Int.lt_or_le count 3 with hcount | hcount
  · exact Or.inl hcount
  · apply Or.inr
    have hq : (count / 3).toNat ≠ 0 := by omega
    have hless : (count / 3).toNat < 2 ^ 49 - 1 := by
      unfold firstMiss at h
      omega
    have hsuited := suited_eq_levelOf hcount
    rcases (levelOf_eq_iff hq).mp hsuited.symm with ⟨hend, hstart⟩
    have hk : 2 * suited count + 1 ≤ 49 := by
      by_contra hmore
      have hpow : 2 ^ 49 ≤ 2 ^ (2 * suited count - 1) :=
        Nat.pow_le_pow_right (by decide) (by omega)
      omega
    exact not_logReaches_of_lt hless hend hk

theorem levelOf_pred_two_pow (L : Nat) : levelOf (2 ^ (2 * L + 1) - 1) = L := by
  have hpos : 0 < 4 ^ L := Nat.pow_pos (by decide)
  rw [← four_pow_eq, levelOf_eq_iff (by omega), ← four_pow_eq]
  constructor
  · omega
  · cases L with
    | zero => exact Or.inl rfl
    | succ L =>
        apply Or.inr
        have hexponent : 2 * (L + 1) - 1 = 2 * L + 1 := by omega
        rw [hexponent, ← four_pow_eq, Nat.pow_succ]
        rw [Nat.pow_succ] at hpos
        omega

/-- The last number of edges at a level. -/
def lastSuited (L : Nat) : Int :=
  3 * 4 ^ L * 2 - 1

theorem third_lastSuited (L : Nat) :
    (lastSuited L / 3).toNat = 2 ^ (2 * L + 1) - 1 := by
  have hcast : (4 : Int) ^ L * 2 = (2 ^ (2 * L + 1) : Nat) := by
    rw [← four_pow_eq]
    push_cast
    rfl
  unfold lastSuited
  rw [Int.mul_assoc, hcast]
  omega

theorem three_le_lastSuited (L : Nat) : 3 ≤ lastSuited L := by
  have hpos : (0 : Int) < 4 ^ L := by positivity
  unfold lastSuited
  omega

/-- From the twenty-fourth level on the last number of edges at a level is taken
to a greater one. -/
theorem suits_lt_level {L : Nat} (hL : 24 ≤ L) :
    Suits (lastSuited L) L ∧ L < level (lastSuited L) := by
  have hthree := three_le_lastSuited L
  have hsuits : Suits (lastSuited L) L := by
    rw [suits_iff_of_three_le hthree, third_lastSuited]
    exact levelOf_pred_two_pow L
  have hsuited : L = suited (lastSuited L) := (suits_iff _ _).mp hsuits
  have hmiss : level (lastSuited L) ≠ suited (lastSuited L) := by
    rw [ne_eq, level_eq_suited_iff, ← hsuited, third_lastSuited, not_or]
    constructor
    · exact Int.not_lt.mpr hthree
    · rw [Classical.not_not]
      exact logReaches_of_pred_two_pow (by omega)
  have hmore := (level_of_ne_suited hmiss).left
  rw [← hsuited] at hmore
  exact ⟨hsuits, hmore⟩

end EdgeCount

namespace Settings

open EdgeCount

variable {α : Type} [Scalar α]

theorem set_maxEdges (s : Settings α) (count : Int) :
    s.set (.maxEdges count) = .ok { s with maxLevel := level count } :=
  s.setMaxLevel_eq_ok (Int.natCast_nonneg _)

theorem set_minEdges (s : Settings α) (count : Int) :
    s.set (.minEdges count) = .ok { s with minLevel := level count } :=
  s.setMinLevel_eq_ok (Int.le_trans (by decide) (Int.natCast_nonneg _))

/-- A wanted number of edges sets a level, and more edges never set a lower one.
The level is the one within a factor of two, or the next one.  It is the next one
only when the logarithm rounds up, for which it is short of the end of the level by at
most half the spacing of doubles.  This takes a number close to the end of the level
and happens at the last number of every level from the twenty-fourth on. -/
theorem level_within_factor_two_or_next (s : Settings α) (count : Int) :
    s.set (.maxEdges count) = .ok { s with maxLevel := level count } ∧
      s.set (.minEdges count) = .ok { s with minLevel := level count } ∧
      (count < 3 -> level count = 0) ∧
      (forall more, count ≤ more -> level count ≤ level more) ∧
      (exists L, (forall l, Suits count l <-> l = L) ∧
        (level count = L <->
          count < 3 ∨
            ¬ logReaches (nearestWhole (count / 3).toNat) (2 * L + 1) = true) ∧
        (L < 2 ^ 52 ->
          (level count = L <->
            count < 3 ∨
              Real.logb 2 (nearestWhole (count / 3).toNat) <
                (2 * L + 1 : Nat) - 2 ^ Nat.log2 (2 * L + 1) / 2 ^ 53)) ∧
        (count < firstMiss -> level count = L) ∧
        (level count ≠ L ->
          L < level count ∧ (L < 2 ^ 51 -> level count = L + 1) ∧
            3 * 4 ^ L * 2 * (2 ^ 53 - (2 * L + 1)) ≤ count * 2 ^ 53)) ∧
      forall L, 24 ≤ L -> Suits (lastSuited L) L ∧ L < level (lastSuited L) := by
  refine ⟨s.set_maxEdges count, s.set_minEdges count, fun hcount => if_pos hcount,
    fun _ => level_mono, ⟨suited count, suits_iff count, ?_, ?_, ?_, ?_⟩,
    fun _ => suits_lt_level⟩
  · exact level_eq_suited_iff count
  · exact level_eq_suited_iff_logb_lt count
  · intro hless
    exact (suits_iff _ _).mp (suits_level_of_lt_firstMiss hless)
  · intro hmiss
    exact level_of_ne_suited hmiss

/-- The first number that is missed, three edges below the end of the
twenty-fourth level, is taken to the level after it. -/
theorem level_not_within_factor_two :
    (exists s, (initial : Settings Float).set (.maxEdges firstMiss) = .ok s ∧
        s.maxLevel = 25) ∧
      (exists s, (initial : Settings Float).set (.minEdges firstMiss) = .ok s ∧
        s.minLevel = 25) ∧
      3 ≤ firstMiss ∧ Suits firstMiss 24 ∧ ¬ Suits firstMiss 25 := by
  have hlevel : level firstMiss = 25 := by decide +kernel
  have hvalue : (level firstMiss : Int) = 25 := by
    rw [hlevel]
    rfl
  refine ⟨⟨_, set_maxEdges _ firstMiss, hvalue⟩,
    ⟨_, set_minEdges _ firstMiss, hvalue⟩, ?_⟩
  decide +kernel

end Settings

end SphereFixtures
