import SphereFixtures.Random.Twister

/-!
# Seeds

A signed 32-bit seed is spread over a pool of four words, from which the first
window of the generator is filled.  Each step uses a multiplier of its own, so
equal words give different results at different places.
-/

namespace SphereFixtures

/-!
## Accepted seeds
-/

/-- A seed that a signed 32-bit integer holds. -/
structure Seed where
  value : Int
  least_le : -2147483648 ≤ value
  le_greatest : value ≤ 2147483647
deriving DecidableEq, Repr

inductive SeedError where
  | outOfRange (seed : Int)
deriving DecidableEq, Repr

namespace SeedError

def message : SeedError -> String
  | .outOfRange seed =>
      s!"Seed must be a signed 32-bit integer, got {seed}."

end SeedError

namespace Seed

def ofInt (seed : Int) : Except SeedError Seed :=
  if h : -2147483648 ≤ seed ∧ seed ≤ 2147483647 then
    .ok { value := seed, least_le := h.1, le_greatest := h.2 }
  else
    .error (.outOfRange seed)

def default : Seed :=
  { value := 1, least_le := by decide, le_greatest := by decide }

/-- The seed as a word, a negative one modulo `2 ^ 32`. -/
def word (seed : Seed) : UInt32 :=
  UInt32.ofNat (seed.value % 4294967296).toNat

end Seed

/-!
## Hashing words
-/

namespace SeedPool

/-- The higher half of a word folded onto the lower one. -/
def fold (w : UInt32) : UInt32 :=
  w ^^^ (w >>> 16)

/-- A hash of a word with a multiplier that the next hash must not use; the
next multiplier is `factor` times this one. -/
def hash (factor : UInt32) (w : UInt32) : StateM UInt32 UInt32 := do
  let salt ← get
  let multiplier := salt * factor
  set multiplier
  return fold ((w ^^^ salt) * multiplier)

def mix (x y : UInt32) : UInt32 :=
  fold (0xca01f9dd * x - 0x4973f715 * y)

def entropySalt : UInt32 := 0x43b0d7e5

def entropyFactor : UInt32 := 0x931e8875

def outputSalt : UInt32 := 0x8b51f9dd

def outputFactor : UInt32 := 0x58f38ded

/-!
## The pool
-/

/-- Mix word `source` of the pool into word `target`. -/
def stir (pool : Vector UInt32 4) (step : Fin 4 × Fin 4) :
    StateM UInt32 (Vector UInt32 4) := do
  let (source, target) := step
  let hashed ← hash entropyFactor pool[source]
  return pool.set target (mix pool[target] hashed)

def steps : List (Fin 4 × Fin 4) :=
  (List.finRange 4).flatMap fun source =>
    ((List.finRange 4).filter (source ≠ ·)).map fun target => (source, target)

/-- The pool before it is stirred: the seed, filled up with zeros, hashed. -/
def start (seed : UInt32) : StateM UInt32 (Vector UInt32 4) := do
  let a ← hash entropyFactor seed
  let b ← hash entropyFactor 0
  let c ← hash entropyFactor 0
  let d ← hash entropyFactor 0
  return #v[a, b, c, d]

def ofWord (seed : UInt32) : Vector UInt32 4 :=
  let (pool, salt) := (start seed).run entropySalt
  ((steps.foldlM stir pool).run salt).1

/-- `count` words hashed from the pool in turn. -/
def fill (pool : Vector UInt32 4) (count : Nat) : List UInt32 :=
  (((List.range count).mapM fun i =>
    hash outputFactor pool[Fin.ofNat 4 i]).run outputSalt).1

end SeedPool

/-!
## The first window
-/

namespace Twister

/-- The window of a seed.  Its first word is replaced by its highest bit, so
that the window is never all zero. -/
def ofSeed (seed : Seed) : Twister :=
  let words := SeedPool.fill (SeedPool.ofWord seed.word) size
  let words := words.set 0 0x80000000
  { words := Vector.ofFn fun i => words.getD i 0
    oldest := ⟨0, Nat.zero_lt_succ 623⟩ }

end Twister

/-- A source of words that can be started from a seed. -/
class SeededSource (σ : Type) extends WordSource σ where
  ofSeed : Seed -> σ

instance : SeededSource Twister where
  ofSeed := Twister.ofSeed

end SphereFixtures
