import SphereFixtures.Random.Words

/-!
# The twisted shift register

A linear generator with a period of `2 ^ 19937 - 1`.  Its state is a window of
624 consecutive words of a sequence in which every word is a combination of
three earlier ones; an output is the newest word of the window, tempered.
-/

namespace SphereFixtures

/-- The window of a generator: word `oldest` is the one to be replaced next,
and the words follow it in a circle. -/
structure Twister where
  words : Vector UInt32 624
  oldest : Fin 624

namespace Twister

def size : Nat := 624

/-- How far the third word of the recurrence is behind the new one, counted
from the oldest word. -/
def middle : Nat := 397

def join (x y : UInt32) : UInt32 :=
  (x &&& 0x80000000) ||| (y &&& 0x7fffffff)

/-- Multiplication by the companion matrix of the recurrence. -/
def twist (w : UInt32) : UInt32 :=
  (w >>> 1) ^^^ (if w &&& 1 == 1 then 0x9908b0df else 0)

/-- The word that follows a window with these three words: its first, its
second, and the one in the middle. -/
def successor (first second mid : UInt32) : UInt32 :=
  mid ^^^ twist (join first second)

/-- The output for a word of the sequence. -/
def temper (w : UInt32) : UInt32 :=
  let w := w ^^^ (w >>> 11)
  let w := w ^^^ ((w <<< 7) &&& 0x9d2c5680)
  let w := w ^^^ ((w <<< 15) &&& 0xefc60000)
  w ^^^ (w >>> 18)

def window (t : Twister) (n : Nat) : UInt32 :=
  t.words[t.oldest + Fin.ofNat 624 n]

def newest (t : Twister) : UInt32 :=
  t.window (size - 1)

/-- The window one word further along the sequence. -/
def advance (t : Twister) : Twister :=
  let next := successor (t.window 0) (t.window 1) (t.window middle)
  { words := t.words.set t.oldest next, oldest := t.oldest + 1 }

instance : WordSource Twister where
  next t := (temper t.newest, t.advance)

end Twister

end SphereFixtures
