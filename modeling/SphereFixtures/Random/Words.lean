import SphereFixtures.Scalar

/-!
# Draws from words

Every random quantity is assembled from a few 32-bit words, so it is a function
of the words alone.  A source supplies the words one by one; a draw takes as
many as its function needs, in order.
-/

namespace SphereFixtures

/-- A state that yields a sequence of 32-bit words. -/
class WordSource (σ : Type) where
  next : σ -> UInt32 × σ

/-!
## Functions of words
-/

namespace Words

def wide (high low : UInt32) : Nat :=
  high.toNat * 4294967296 + low.toNat

/-- The remainder of 64 random bits. -/
def below (n : Nat) (high low : UInt32) : Nat :=
  wide high low % n

def hit (n : Nat) (high low : UInt32) : Bool :=
  below n high low == 0

def lowBits (width : Nat) (word : UInt32) : Nat :=
  word.toNat % (1 <<< width)

variable {α : Type} [Scalar α]

/-- A multiple of `2 ^ -53` in the unit interval, made of the 27 highest bits
of one word and the 26 highest bits of another one. -/
def unit (high low : UInt32) : α :=
  (((high >>> 5).toNat : α) * (67108864.0 : α) + ((low >>> 6).toNat : α))
    * ((1.0 : α) / (9007199254740992.0 : α))

/-- The point of the interval from `lo` to `hi` at a fraction of its length. -/
def between (lo hi fraction : α) : α :=
  lo + fraction * (hi - lo)

end Words

/-!
## Refusals

Arguments are checked before the first word is taken.
-/

/-- An argument outside the range that a draw accepts. -/
inductive DrawError where
  | bound (n : Int)
  | width (n : Int)
deriving DecidableEq, Repr

namespace DrawError

def maxBound : Int := 2147483647

def maxWidth : Int := 31

def message : DrawError -> String
  | .bound n => s!"'n' must lie in [1, {maxBound}], got {n}."
  | .width n => s!"'max_log' must lie in [0, {maxWidth}], got {n}."

end DrawError

/-- A draw that cannot fail. -/
abbrev Draw (σ α : Type) := StateM σ α

/-- A draw that may be refused. -/
abbrev Attempt (ε σ α : Type) := ExceptT ε (StateM σ) α

/-!
## Draws
-/

namespace Draw

variable {σ : Type} [WordSource σ]

def word : Draw σ UInt32 :=
  fun s => WordSource.next s

def pair {β : Type} (f : UInt32 -> UInt32 -> β) : Draw σ β := do
  let high ← word
  let low ← word
  return f high low

def wide : Draw σ Nat :=
  pair Words.wide

def unit {α : Type} [Scalar α] : Draw σ α :=
  pair Words.unit

def between {α : Type} [Scalar α] (lo hi : α) : Draw σ α := do
  return Words.between lo hi (← unit)

def checkBound (n : Int) : Except DrawError Nat :=
  if 0 < n ∧ n ≤ DrawError.maxBound then .ok n.toNat else .error (.bound n)

def checkWidth (n : Int) : Except DrawError Nat :=
  if 0 ≤ n ∧ n ≤ DrawError.maxWidth then .ok n.toNat else .error (.width n)

def below (n : Int) : Attempt DrawError σ Nat := do
  let n ← (checkBound n : Except DrawError Nat)
  (pair (Words.below n) : Draw σ Nat)

def oneIn (n : Int) : Attempt DrawError σ Bool := do
  let n ← (checkBound n : Except DrawError Nat)
  (pair (Words.hit n) : Draw σ Bool)

def afterPair (s : σ) : σ :=
  (WordSource.next (WordSource.next s).2).2

theorem pair_run {β : Type} (f : UInt32 -> UInt32 -> β) (s : σ) :
    (pair f).run s =
      (f (WordSource.next s).1 (WordSource.next (WordSource.next s).2).1,
        afterPair s) := rfl

theorem below_run (n : Int) (s : σ) :
    (below n).run.run s =
      match checkBound n with
      | .error e => (.error e, s)
      | .ok m => (((pair (Words.below m)).run s).map .ok id) := by
  cases h : checkBound n <;> simp [below, h] <;> rfl

theorem oneIn_run (n : Int) (s : σ) :
    (oneIn n).run.run s =
      match checkBound n with
      | .error e => (.error e, s)
      | .ok m => (((pair (Words.hit m)).run s).map .ok id) := by
  cases h : checkBound n <;> simp [oneIn, h] <;> rfl

/-- A number of at most `width` bits that favours small values: the number of
bits is drawn first. -/
def skewed (width : Int) : Attempt DrawError σ Nat := do
  let width ← (checkWidth width : Except DrawError Nat)
  let bits ← below (width + 1 : Nat)
  let last ← (word : Draw σ UInt32)
  return Words.lowBits bits last

end Draw

end SphereFixtures
