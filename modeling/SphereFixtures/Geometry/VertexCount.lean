import SphereFixtures.Binary64
import SphereFixtures.Decimal.Text

/-!
# Room for vertices

The angles of a polygon are kept in one array of doubles.  Their number is
rounded to double precision before the array is laid out, and there are limits
to the number, to the size of the array and to the memory that it may take.
-/

namespace SphereFixtures

/-!
## Sizes in bytes
-/

namespace ByteSize

def units : List String :=
  ["bytes", "KiB", "MiB", "GiB", "TiB", "PiB", "EiB"]

/-- The unit, as a number of steps of 1024, in which a size is written: the
greatest one that is not above it, or above the size once it is rounded. -/
def step (bytes : Nat) : Nat :=
  let step := Nat.log2 bytes / 10
  if Decimal.roundDiv bytes (1 <<< (10 * step)) = 1024 then step + 1 else step

/-- A size in its unit, with three digits and a point; four digits in front of
the point are all written. -/
def amountText (bytes step : Nat) : String :=
  let whole := Decimal.roundDiv bytes (1 <<< (10 * step))
  if whole < 1000 then
    let rounded := Decimal.toDigits 3 bytes (-(10 * step : Nat))
    let places := (-rounded.exponent).toNat
    Decimal.pointText places rounded.digits ++ (if places = 0 then "." else "")
  else
    s!"{whole}."

def text (bytes : Nat) : String :=
  let step := step bytes
  let amount := if step = 0 then toString bytes else amountText bytes step
  amount ++ " " ++ (units[step]?).getD ""

end ByteSize

/-!
## Limits
-/

inductive CapacityError where
  | tooMany
  | tooLong
  | tooBig
  /-- The memory does not hold this many angles. -/
  | outOfMemory (count : Nat)
deriving DecidableEq, Repr

namespace CapacityError

def message : CapacityError -> String
  | .tooMany => "Maximum allowed size exceeded"
  | .tooLong => "Maximum allowed dimension exceeded"
  | .tooBig => "array is too big; `arr.size * arr.dtype.itemsize` is larger "
      ++ "than the maximum possible size."
  | .outOfMemory count => s!"Unable to allocate {ByteSize.text (8 * count)} for "
      ++ s!"an array with shape ({count},) and data type float64"

end CapacityError

namespace VertexCount

/-- Lengths of arrays are below this bound. -/
def lengthBound : Nat := 1 <<< 63

def memory : Nat := 1 <<< 36

/-- Whether there is room for `count` vertices.  A number that is rounded up to
the bound on lengths is not noticed before an array is laid out for it. -/
def check (count : Nat) : Except CapacityError Unit :=
  let rounded := Binary64.nearestWhole count
  if lengthBound < rounded then .error .tooMany
  else if lengthBound ≤ count then .error .tooLong
  else if lengthBound ≤ 8 * rounded then .error .tooBig
  else if memory < 8 * rounded then .error (.outOfMemory rounded)
  else .ok ()

end VertexCount

end SphereFixtures
